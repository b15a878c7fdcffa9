import Mathlib.Data.Rat.Defs

/-!
# JSON values

Decoded documents as a dynamically typed program reads them: an object is
probed by key, a missing key is `null`, and a value of the wrong kind answers no
typed question.
-/
namespace Library

inductive Json
  | null
  | bool (b : Bool)
  | num (q : ℚ)
  | str (s : String)
  | arr (items : List Json)
  | obj (fields : List (String × Json))

namespace Json

/-- The field `key` of an object; `null` when absent or when this is no object. -/
def get (j : Json) (key : String) : Json :=
  match j with
  | obj fields => ((fields.find? (fun f => f.1 == key)).map Prod.snd).getD null
  | _ => null

def str? : Json → Option String
  | str s => some s
  | _ => none

def arr? : Json → Option (List Json)
  | arr items => some items
  | _ => none

def isObj : Json → Bool
  | obj _ => true
  | _ => false

def isNull : Json → Bool
  | null => true
  | _ => false

def ofOption : Option String → Json
  | some s => str s
  | none => null

/-- An object extended by fields that take precedence over its own. -/
def merge (j : Json) (fields : List (String × Json)) : Json :=
  match j with
  | obj old => obj (fields ++ old)
  | _ => obj fields

@[simp] theorem get_obj_cons (k key : String) (v : Json) (fields : List (String × Json)) :
    (obj ((k, v) :: fields)).get key = if k = key then v else (obj fields).get key := by
  by_cases h : k = key
  · simp [get, h]
  · simp [get, h]

@[simp] theorem get_obj_nil (key : String) : (obj []).get key = null := rfl

@[simp] theorem str?_str (s : String) : (str s).str? = some s := rfl

end Json

end Library
