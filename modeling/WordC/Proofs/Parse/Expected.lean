import WordC.Tree.Parse

namespace WordC.Parse

-- What a diagnostic says was expected, as a property of lexemes: a type, a name, a number where an expression
-- may stand, or the mark in quotes.
inductive Fits : String → Lexeme → Prop where
  | typeName : Fits "type" (.typeName word)
  | identifier : Fits "identifier" (.identifier name)
  | number : Fits "expression" (.number value)
  | assign : Fits "'='" (.operator (some "="))
  | sum : Fits "'+'" (.operator (some "+"))
  | product : Fits "'*'" (.operator (some "*"))
  | opens : Fits "'('" (.parenthesis (some "("))
  | closes : Fits "')'" (.parenthesis (some ")"))
  | opensBody : Fits "'\x7b'" (.bracket (some "\x7b"))
  | closesBody : Fits "'\x7d'" (.bracket (some "\x7d"))
  | comma : Fits "','" (.comma payload)
  | semicolon : Fits "';'" (.semicolon payload)
  | ret : Fits "'return'" (.ret payload)

-- The token that a refusal is about, none at the end of the list.
def Refusal.found : Refusal → Option Token
  | .unmet _ found | .noExpression found => found
  | .pointer found => some found

def Refusal.expected : Refusal → String
  | .unmet wanted _ => wanted.text
  | .noExpression _ => "expression"
  | .pointer _ => "identifier"

-- A demand that is met by whatever fits its words, and the words are not empty.
class Honest (wanted : Wanted) : Prop where
  met : Fits expected lexeme → wanted.text = expected → wanted.metBy lexeme = true
  fits_sample : Fits wanted.text wanted.sample

-- The demands that are made on the way through a program.
def demands : List Wanted :=
  [.typeName, .identifier, .comma, .semicolon, .ret, .parenthesis (some "("), .parenthesis (some ")"),
    .bracket (some "\x7b"), .bracket (some "\x7d"), .operator (some "="), .operator (some "+"),
    .operator (some "*")]

theorem honest_of_mem (made : wanted ∈ demands) : Honest wanted where
  met fits said := by
    simp only [demands, List.mem_cons, List.not_mem_nil, or_false] at made
    rcases made with rfl | rfl | rfl | rfl | rfl | rfl | rfl | rfl | rfl | rfl | rfl | rfl <;>
      cases fits <;> simp [Wanted.text, Wanted.metBy, toString] at said ⊢
  fits_sample := by
    simp only [demands, List.mem_cons, List.not_mem_nil, or_false] at made
    rcases made with rfl | rfl | rfl | rfl | rfl | rfl | rfl | rfl | rfl | rfl | rfl | rfl <;> constructor

instance : Honest .typeName := honest_of_mem (by decide)
instance : Honest .identifier := honest_of_mem (by decide)
instance : Honest .comma := honest_of_mem (by decide)
instance : Honest .semicolon := honest_of_mem (by decide)
instance : Honest .ret := honest_of_mem (by decide)
instance : Honest (.parenthesis (some "(")) := honest_of_mem (by decide)
instance : Honest (.parenthesis (some ")")) := honest_of_mem (by decide)
instance : Honest (.bracket (some "\x7b")) := honest_of_mem (by decide)
instance : Honest (.bracket (some "\x7d")) := honest_of_mem (by decide)

instance (tier : Tier) : Honest (.operator (some tier.symbol)) :=
  honest_of_mem (by cases tier <;> decide)

end WordC.Parse
