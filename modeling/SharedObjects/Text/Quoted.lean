import SharedObjects.Text.Escaped
set_option autoImplicit false

namespace SharedObjects.Quoted

def character (c : Char) : List Char :=
  match c with
  | '\x00' => ['\\', '0']
  | '\t' => ['\\', 't']
  | '\x0d' => ['\\', 'r']
  | '\n' => ['\\', 'n']
  | '"' => ['\\', '"']
  | '\\' => ['\\', '\\']
  | _ =>
    if Escaped.isEscaped c then
      ['\\', 'u', '\x7b'] ++ Nat.toDigits 16 c.toNat ++ ['\x7d']
    else [c]

def quote (text : String) : String :=
  String.ofList ('"' :: text.toList.flatMap character ++ ['"'])

end SharedObjects.Quoted
