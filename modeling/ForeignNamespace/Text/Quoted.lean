import ForeignNamespace.Text.Invisible

/-!
Quoted texts.  Between the quotes a quote and a backslash stand behind a backslash, the tab, the
two line ends and the zero character have letters of their own, any other character that leaves no
mark is written as its hexadecimal code point, and everything else stands for itself.
-/

namespace ForeignNamespace.Quoted

/-- The letter that stands behind a backslash for a character that has one. -/
def letter? : Char → Option Char
  | '"' => some '"'
  | '\\' => some '\\'
  | '\n' => some 'n'
  | '\t' => some 't'
  | '\r' => some 'r'
  | '\x00' => some '0'
  | _ => none

def escape (c : Char) : List Char :=
  match letter? c with
  | some l => ['\\', l]
  | none =>
    if Invisible.isInvisible c then
      "\\u\x7b".toList ++ Nat.toDigits 16 c.toNat ++ "\x7d".toList
    else [c]

def quote (text : String) : String :=
  "\"" ++ String.ofList (text.toList.flatMap escape) ++ "\""

end ForeignNamespace.Quoted
