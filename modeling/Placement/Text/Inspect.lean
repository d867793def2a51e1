import Placement.Text.Quoted

namespace Placement.Text.Inspect

def string (s : String) : String := Quoted.quote s

def bool (b : Bool) : String := if b then "true" else "false"

def applied (name argument : String) : String := name ++ "(" ++ argument ++ ")"

def option : Option String → String
  | some item => applied "Some" item
  | none => "None"

def list (items : List String) : String := "[" ++ ", ".intercalate items ++ "]"

def set (items : List String) : String := "\x7b" ++ ", ".intercalate items ++ "\x7d"

def map (pairs : List (String × String)) : String :=
  set (pairs.map (fun (key, value) => key ++ ": " ++ value))

def record (name : String) (fields : List (String × String)) : String :=
  name ++ " \x7b " ++ ", ".intercalate (fields.map (fun (key, value) => key ++ ": " ++ value))
    ++ " \x7d"

end Placement.Text.Inspect
