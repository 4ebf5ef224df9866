import Lqxp.Data.Text

/-!
This module contains JSON values, the way requests and replies carry them, with the accessors and the
compact rendering of the JSON library.
-/

/--
A number is kept as an integer when it is written without fraction and exponent, else as its text.
-/
inductive Json where
  | null
  | bool (b : Bool)
  | int (n : Int)
  | float (text : String)
  | str (s : String)
  | arr (elems : List Json)
  | obj (fields : List (String × Json))

namespace Json

def get? (d : Json) (key : String) : Option Json :=
  match d with
  | .obj fields => fields.lookup key
  | _ => none

def asStr? : Json → Option String
  | .str s => some s
  | _ => none

def asBool? : Json → Option Bool
  | .bool b => some b
  | _ => none

def asU64? : Json → Option Nat
  | .int n => if 0 ≤ n && n < 2 ^ 64 then some n.toNat else none
  | _ => none

def isObject : Json → Bool
  | .obj _ => true
  | _ => false

def isNull : Json → Bool
  | .null => true
  | _ => false

def getStr? (d : Json) (key : String) : Option String := (d.get? key).bind asStr?

def getBool? (d : Json) (key : String) : Option Bool := (d.get? key).bind asBool?

def getU64? (d : Json) (key : String) : Option Nat := (d.get? key).bind asU64?

/--
Store a field of an object, in place of an older one under the same key.
-/
def insert (d : Json) (key : String) (value : Json) : Json :=
  match d with
  | .obj fields => .obj (fields.filter (·.1 != key) ++ [(key, value)])
  | d => d

def escapeChar (c : Char) : String :=
  match c with
  | '"' => "\\\""
  | '\\' => "\\\\"
  | '\n' => "\\n"
  | '\r' => "\\r"
  | '\t' => "\\t"
  | c =>
    if c.toNat = 0x8 then "\\b"
    else if c.toNat = 0xC then "\\f"
    else if c.toNat < 0x10 then "\\u000" ++ Text.hexDigits c.toNat
    else if c.toNat < 0x20 then "\\u00" ++ Text.hexDigits c.toNat
    else c.toString

def renderStr (s : String) : String := "\"" ++ String.join (s.toList.map escapeChar) ++ "\""

mutual

def render : Json → String
  | .null => "null"
  | .bool b => if b then "true" else "false"
  | .int n => toString n
  | .float text => text
  | .str s => renderStr s
  | .arr elems => "[" ++ renderElems elems ++ "]"
  | .obj fields => "\x7b" ++ renderFields fields ++ "\x7d"

def renderElems : List Json → String
  | [] => ""
  | [elem] => elem.render
  | elem :: elems => elem.render ++ "," ++ renderElems elems

def renderFields : List (String × Json) → String
  | [] => ""
  | [field] => renderField field
  | field :: fields => renderField field ++ "," ++ renderFields fields

def renderField : String × Json → String
  | (key, value) => renderStr key ++ ":" ++ value.render

end

end Json
