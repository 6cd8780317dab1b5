import EntityTable.Source.Token

/-! # Syntax errors

Why a text is not of the form that was asked for. The first error met from left to right is
reported; tokens that are left over in a group are reported only if nothing else is wrong. -/

namespace EntityTable.Source

/-- The reasons for which a text is refused. -/
inductive SyntaxError where
  /-- The text has no tokens. -/
  | lexical
  /-- None of the alternatives stands here. -/
  | expected (atEnd : Bool) (alternatives : List String)
  /-- A keyword stands where an identifier should. -/
  | keyword (name : String)
  /-- Tokens are left over, in a group or at the end of the text. -/
  | leftOver (enclosing : Option Delimiter)
  /-- A comparison is compared again without parentheses. -/
  | chainedComparison
  /-- A cast is followed by what would apply to the type. -/
  | castFollowed (construct : String)
  /-- Any other rule that the text breaks. -/
  | rule (text : String)
  deriving Repr

namespace SyntaxError

/-- The alternatives as a phrase. -/
def phrase : List String → String
  | [] => ""
  | [one] => "expected " ++ one
  | [one, other] => "expected " ++ one ++ " or " ++ other
  | many => "expected one of: " ++ ", ".intercalate many

/-- The text of an error. -/
def message : SyntaxError → String
  | lexical => "cannot parse string into token stream"
  | expected atEnd alternatives =>
    (if atEnd then "unexpected end of input, " else "") ++ phrase alternatives
  | keyword name => "expected identifier, found keyword `" ++ name ++ "`"
  | leftOver none => "unexpected token"
  | leftOver (some d) => "unexpected token, expected `" ++ String.singleton d.closing ++ "`"
  | chainedComparison => "comparison operators cannot be chained"
  | castFollowed construct => "casts cannot be followed by " ++ construct
  | rule text => text

end SyntaxError

end EntityTable.Source
