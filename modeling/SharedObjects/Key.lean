import SharedObjects.Text.Quoted
set_option autoImplicit false

namespace SharedObjects

inductive Key
  | number (n : Int64)
  | text (s : String)
  deriving DecidableEq, Repr

namespace Key

def label : Key → String
  | number n => "#" ++ toString n.toInt
  | text s => Quoted.quote s

/-- Numbers by size, then texts by code points. -/
def precedes : Key → Key → Bool
  | number m, number n => m ≤ n
  | number _, text _ => true
  | text _, number _ => false
  | text s, text t => s ≤ t

def sorted (keys : List Key) : List Key := keys.mergeSort precedes

end Key

end SharedObjects
