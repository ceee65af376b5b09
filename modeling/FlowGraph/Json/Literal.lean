import FlowGraph.Json.Basic
import FlowGraph.Text.Quoted

/-! Values as descriptions of graphs show them: strings in quotes, words for the constants. -/

namespace FlowGraph.Json

def literalNames : Binary64.Names := ⟨"inf", "nan"⟩

mutual

def literal : Json → List Char
  | .null => "None".toList
  | .bool true => "True".toList
  | .bool false => "False".toList
  | .int n => Text.signedDigits n
  | .float x => x.render literalNames
  | .string s => Text.quotedChars s.toList
  | .array [] => ['[', ']']
  | .array (item :: items) => '[' :: literal item ++ literalItems items ++ [']']
  | .object [] => ['\x7b', '\x7d']
  | .object ((key, value) :: fields) =>
    '\x7b' :: Text.quotedChars key.toList ++ ':' :: ' ' :: literal value ++ literalFields fields ++
      ['\x7d']

def literalItems : List Json → List Char
  | [] => []
  | item :: items => ',' :: ' ' :: literal item ++ literalItems items

def literalFields : List (String × Json) → List Char
  | [] => []
  | (key, value) :: fields =>
    ',' :: ' ' :: Text.quotedChars key.toList ++ ':' :: ' ' :: literal value ++ literalFields fields

end

/-- A string as it is, any other value by its literal. -/
def display : Json → String
  | .string s => s
  | value => String.ofList (literal value)

end FlowGraph.Json
