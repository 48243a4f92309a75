/-!
# C string literals

Inside a literal the backslash and the double quote are escaped; everything else
stands for itself.
-/

namespace CallBridge.Generated

/-- A text with its backslashes and double quotes escaped, on characters. -/
def escapeChars : List Char → List Char
  | [] => []
  | c :: cs => if c = '\\' ∨ c = '"' then '\\' :: c :: escapeChars cs else c :: escapeChars cs

/-- A text with its backslashes and double quotes escaped. -/
def literalBody (s : String) : String :=
  String.ofList (escapeChars s.toList)

/-- A text as a string literal. -/
def literal (s : String) : String :=
  "\"" ++ literalBody s ++ "\""

end CallBridge.Generated
