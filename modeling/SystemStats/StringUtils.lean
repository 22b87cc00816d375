import SystemStats.TextLines

/-!
# String utilities

The two functions of `string_utils.cpp`. A search that finds nothing reports
`npos`, the largest `size_t`, and a length computed from it wraps.
-/

namespace SystemStats.StringUtils
open TextLines

def whitespace : Text := [' ', '\t', '\n', '\r']

def npos : ℕ := 0xFFFFFFFFFFFFFFFF

def trimString (str : Text) : Text :=
  match findFirstNotOf whitespace str with
  | none => []
  | some start =>
    match findLastNotOf whitespace str with
    | none => substr str start ((npos - start + 1) % (npos + 1))
    | some last => substr str start (last - start + 1)

def removeQuotes (str : Text) : Text :=
  let result := trimString str
  if result.length ≥ 2 ∧ result.head? = some '"' ∧ result.getLast? = some '"' then
    substr result 1 (result.length - 2)
  else result

example : removeQuotes " \"Debian GNU/Linux\"\t".toList = "Debian GNU/Linux".toList := by decide

end SystemStats.StringUtils
