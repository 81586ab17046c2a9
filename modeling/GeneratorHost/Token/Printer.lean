import GeneratorHost.Token.Basic

/-! The text of tokens: one blank between tokens, none after a joint punctuation character. -/
namespace GeneratorHost.Token

mutual

def text : Token → String
  | .ident raw name _ => if raw then "r#" ++ name else name
  | .punct c _ _ => c.toString
  | .literal spelling _ => spelling
  | .group .parenthesis content _ => "(" ++ textAll content ++ ")"
  | .group .bracket content _ => "[" ++ textAll content ++ "]"
  | .group .brace [] _ => "\x7b \x7d"
  | .group .brace content _ => "\x7b " ++ textAll content ++ " \x7d"

def textAll : List Token → String
  | [] => ""
  | [t] => t.text
  | .punct c true _ :: ts => c.toString ++ textAll ts
  | t :: ts => t.text ++ " " ++ textAll ts

end

end GeneratorHost.Token
