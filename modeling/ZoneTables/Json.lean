import ZoneTables.NameMap
import ZoneTables.Text.Decimal

/-!
# JSON documents

Values without fractions, and their text with one member or item on a line,
indented by two spaces for each level.
-/

namespace ZoneTables

inductive Json where
  | null
  | bool (b : Bool)
  | int (n : Int)
  | str (s : String)
  | arr (items : List Json)
  | obj (members : List (String × Json))

namespace Json

def nat (n : Nat) : Json := int n

def natOrNull : Option Nat → Json
  | some n => nat n
  | none => null

def texts (l : List String) : Json := arr (l.map str)

def ofMap {α : Type} (f : α → Json) (m : NameMap α) : Json :=
  obj (m.entries.map fun (name, a) => (name, f a))

def escapeChar (c : Char) : List Char :=
  match c with
  | '"' => ['\\', '"']
  | '\\' => ['\\', '\\']
  | '\n' => ['\\', 'n']
  | '\r' => ['\\', 'r']
  | '\t' => ['\\', 't']
  | '\x08' => ['\\', 'b']
  | '\x0c' => ['\\', 'f']
  | _ =>
    if c.toNat < 0x20 then '\\' :: 'u' :: Text.hexDigits 4 c.toNat else [c]

def quoted (s : String) : String :=
  String.ofList ('"' :: s.toList.flatMap escapeChar ++ ['"'])

def newline (level : Nat) : String :=
  "\n" ++ String.ofList (List.replicate (2 * level) ' ')

mutual

def write (level : Nat) (out : String) : Json → String
  | null => out ++ "null"
  | bool b => out ++ if b then "true" else "false"
  | int n => out ++ toString n
  | str s => out ++ quoted s
  | arr [] => out ++ "[]"
  | arr (item :: rest) =>
    let first := write (level + 1) (out ++ "[" ++ newline (level + 1)) item
    writeItems (level + 1) first rest ++ newline level ++ "]"
  | obj [] => out ++ "\x7b\x7d"
  | obj ((name, value) :: rest) =>
    let key := quoted name ++ ": "
    let first :=
      write (level + 1) (out ++ "\x7b" ++ newline (level + 1) ++ key) value
    writeMembers (level + 1) first rest ++ newline level ++ "\x7d"

def writeItems (level : Nat) (out : String) : List Json → String
  | [] => out
  | item :: rest =>
    writeItems level (write level (out ++ "," ++ newline level) item) rest

def writeMembers (level : Nat) (out : String) :
    List (String × Json) → String
  | [] => out
  | (name, value) :: rest =>
    let key := quoted name ++ ": "
    writeMembers level
      (write level (out ++ "," ++ newline level ++ key) value) rest

end

def text (value : Json) : String := write 0 "" value

end Json

end ZoneTables
