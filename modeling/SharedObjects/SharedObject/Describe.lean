import SharedObjects.SharedObject
import SharedObjects.Value.Describe
set_option autoImplicit false

namespace SharedObjects.SharedObject

def describe (o : SharedObject) : String :=
  "DObject \x7b id: " ++ o.id.describe ++ ", type: " ++ Quoted.quote o.type.name ++ ", state: " ++
    o.stage.name ++ ", values: " ++ bracketed (Value.describeItems o.values) ++ ", listeners: " ++
    Nat.repr o.listeners.length ++ " \x7d"

end SharedObjects.SharedObject
