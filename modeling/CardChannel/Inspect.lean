/-! Values written out for a person who looks into a failure: the name of the value, then its
parts in braces with their names or in parentheses without.  Texts and characters are quoted.
Inside quotes the quote itself and the backslash are escaped, and a character that would not show
is written by its code point; the rule for what shows covers the characters up to U+00FF. -/

namespace CardChannel.Inspect

def record (name : String) (fields : List (String × String)) : String :=
  let parts := fields.map fun (label, value) => label ++ ": " ++ value
  name ++ " \x7b " ++ ", ".intercalate parts ++ " \x7d"

def tuple (name : String) (values : List String) : String :=
  name ++ "(" ++ ", ".intercalate values ++ ")"

def bool (value : Bool) : String := if value then "true" else "false"

/-- Control characters, spaces other than the common one and the soft hyphen do not show. -/
def shows (c : Char) : Bool :=
  let code := c.toNat
  32 ≤ code && !(127 ≤ code && code ≤ 160) && code != 173

def escaped (quote c : Char) : String :=
  if c = quote ∨ c = '\\' then String.ofList ['\\', c]
  else if c.toNat = 0 then "\\0"
  else if c = '\t' then "\\t"
  else if c = '\n' then "\\n"
  else if c = '\r' then "\\r"
  else if shows c then String.ofList [c]
  else "\\u\x7b" ++ String.ofList (Nat.toDigits 16 c.toNat) ++ "\x7d"

def character (c : Char) : String := "'" ++ escaped '\'' c ++ "'"

def text (s : String) : String := "\"" ++ String.join (s.toList.map (escaped '"')) ++ "\""

end CardChannel.Inspect
