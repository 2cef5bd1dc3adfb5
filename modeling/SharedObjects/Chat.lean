import SharedObjects.Catalog
set_option autoImplicit false

namespace SharedObjects.Chat

def nameType : String := "chat.Name"

def occupantType : String := "chat.Occupant"

def placeType : String := "chat.Place"

def roomType : String := "chat.Room"

def clientType : String := "chat.ClientObject"

def schemas : List Schema :=
  [(Schema.streamable nameType).withField "text" .text,
   ((Schema.streamable occupantType).withField "name" .record).withField "level" .int,
   ((Schema.distributed placeType).withField "name" .text).withField "occupants" .set,
   ((((Schema.distributed roomType).extending placeType).withField "topic" .text).withField
     "history" .list).withField "visits" .long,
   ((Schema.distributed clientType).withField "username" .record).withField "receivers" .set]

def catalog : Except Fault Catalog := Catalog.initial.registerAll schemas

/-! Two fields of a room, counting those of a place first. -/

def roomName : UInt16 := 0

def roomHistory : UInt16 := 3

end SharedObjects.Chat
