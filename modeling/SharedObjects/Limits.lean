set_option autoImplicit false

namespace SharedObjects

def maxNesting : Nat := 64

/-- The longest text, in bytes: its length travels in two. -/
def maxTextSize : Nat := 65535

/-- The longest byte string or collection: its length travels in four bytes. -/
def maxLength : Nat := 4294967295

def maxFields : Nat := 65535

/-- The most distinct types one message can name: a code travels in two signed bytes. -/
def maxTypeCode : Nat := 32767

def maxArguments : Nat := 65535

def defaultFrameLimit : Nat := 16 * 1024 * 1024

end SharedObjects
