import WordC.Proofs.Token.Layout
import WordC.Proofs.Tree.Canonical

namespace WordC.Scan

theorem written_mark (listed : lexeme ∈ marks.map Prod.snd) : Written lexeme := by
  obtain ⟨⟨c, lexeme⟩, member, rfl⟩ := List.mem_map.mp listed
  have found := mark?_eq_some_iff.mpr member
  have spelled : usualSpelling lexeme = [c] := by fin_cases member <;> rfl
  unfold Written
  rw [spelled]
  exact ⟨.mark found, fits_mark found [c]⟩

theorem written_number (least : 0 ≤ value) (most : value ≤ 18446744073709551615) :
    Written (.number (some value)) := by
  have back : decimal (Nat.toDigits 10 value.toNat) = value.toNat := by
    rw [decimal_eq, Nat.ofDigitChars_ten_toDigits]
  have small : value.toNat ≤ largestLiteral := by
    unfold largestLiteral
    omega
  -- Twenty digits are enough for the largest literal.
  have short : (Nat.toDigits 10 value.toNat).length ≤ 20 := by
    refine (Nat.length_toDigits_le_iff (by decide) (by decide)).mpr ?_
    exact Nat.lt_of_le_of_lt small (by decide)
  have digits : ∀ c ∈ Nat.toDigits 10 value.toNat, isDigit c := fun c member =>
    Nat.isDigit_of_mem_toDigits (by decide) (by decide) member
  have spells := Spells.number Nat.toDigits_ne_nil digits
  rw [back, Int.toNat_of_nonneg least] at spells
  have bound : decimal (Nat.toDigits 10 value.toNat) ≤ largestLiteral := back.trans_le small
  exact ⟨spells, Nat.le_trans short (by decide), bound⟩

theorem written_word (text : String) (letter : text.toList.head?.any Char.isAlpha)
    (all : text.toList.all Char.isAlphanum) (spelled : usualSpelling (word text) = text.toList) :
    Written (word text) := by
  unfold Written
  rw [spelled]
  cases chars : text.toList with
  | nil => simp [chars] at letter
  | cons c more =>
    have same : String.ofList (c :: more) = text := by rw [← chars, String.ofList_toList]
    simp only [chars, List.head?_cons, Option.any_some, List.all_cons, Bool.and_eq_true, List.all_eq_true] at letter all
    have spells : Spells (c :: more) (word (String.ofList (c :: more))) :=
      .word (isLetter_eq c ▸ letter) fun d member => isWordChar_eq d ▸ all.2 d member
    rw [same] at spells
    exact ⟨spells, fits_word text _⟩

theorem written_name (named : isName name) : Written (.identifier name) := by
  cases name with
  | none => simp [isName] at named
  | some text =>
    simp only [isName, Bool.and_eq_true, decide_eq_true_eq] at named
    obtain ⟨⟨⟨all, letter⟩, noType⟩, noReturn⟩ := named
    have read : word text = .identifier (some text) := by simp [word, noType, noReturn]
    rw [← read]
    exact written_word text letter all (by rw [read]; rfl)

theorem written_type : Written (.typeName (some "int")) :=
  written_word "int" (by decide) (by decide) rfl

theorem written_joins (tier : Tier) : Written (Grammar.joins tier) := by
  cases tier <;> exact written_mark (by decide)

theorem written_separated {items : List α} {write : α → List Lexeme} (mark : Written separator)
    (each : ∀ item ∈ items, ∀ lexeme ∈ write item, Written lexeme) :
    ∀ lexeme ∈ [separator].intercalate (items.map write), Written lexeme := by
  induction items with
  | nil => simp
  | cons item rest ih =>
    obtain ⟨here, later⟩ := List.forall_mem_cons.mp each
    cases rest with
    | nil => simpa using here
    | cons next others =>
      intro lexeme member
      rw [List.map_cons, List.map_cons, List.intercalate_cons_cons] at member
      rcases List.mem_append.mp member with front | behind
      · rcases List.mem_append.mp front with inside | between
        · exact here lexeme inside
        · rw [List.mem_singleton.mp between]
          exact mark
      · exact ih later lexeme behind

theorem written_expression (e : Expr) (canonical : e.Canonical) : ∀ lexeme ∈ e.lexemes, Written lexeme := by
  have tidy := canonical.tidy
  induction e with
  | number location value =>
    cases value with
    | none => simp [Expr.isTidy] at tidy
    | some value =>
      simp only [Expr.isTidy, Bool.and_eq_true, decide_eq_true_eq] at tidy
      simpa [Expr.lexemes] using written_number tidy.1 tidy.2
  | var location name => simpa [Expr.lexemes] using written_name tidy
  | call location name arguments ih =>
    have inside : ∀ lexeme ∈ [.comma none].intercalate (arguments.map Expr.lexemes), Written lexeme := by
      apply written_separated (written_mark (by decide))
      intro e listed
      have argument := canonical.inside (Lower.mem_parts_call listed)
      exact ih e listed argument argument.tidy
    simp only [Expr.lexemes, Expr.allLexemes_eq_map, List.cons_append, List.forall_mem_cons, List.forall_mem_append]
    exact ⟨written_name tidy, written_mark (by decide), inside, written_mark (by decide), by simp⟩
  | chain location tier operands ih =>
    rw [Expr.lexemes, Expr.allLexemes_eq_map]
    apply written_separated (written_joins tier)
    intro e listed
    have operand := canonical.inside (Lower.mem_parts_chain listed)
    exact ih e listed operand operand.tidy

theorem written_statement (s : Stmt) (canonical : s.Canonical) : ∀ lexeme ∈ s.lexemes, Written lexeme := by
  cases s with
  | declare location typeName name =>
    obtain ⟨rfl, named⟩ := canonical
    simp only [Stmt.lexemes, List.forall_mem_cons]
    exact ⟨written_type, written_name named, written_mark (by decide), by simp⟩
  | expression location value =>
    simp only [Stmt.lexemes, List.forall_mem_append, List.forall_mem_cons]
    exact ⟨written_expression value canonical, written_mark (by decide), by simp⟩

theorem written_return (r : Return) (canonical : r.value.Canonical) : ∀ lexeme ∈ r.lexemes, Written lexeme := by
  simp only [Return.lexemes, List.cons_append, List.forall_mem_cons, List.forall_mem_append]
  exact ⟨written_word "return" (by decide) (by decide) rfl, written_expression r.value canonical,
    written_mark (by decide), by simp⟩

theorem written_function (f : Function) (canonical : f.Canonical) : ∀ lexeme ∈ f.lexemes, Written lexeme := by
  have parameters : ∀ lexeme ∈ [.comma none].intercalate (f.parameters.map Parameter.lexemes), Written lexeme := by
    apply written_separated (written_mark (by decide))
    intro p listed
    obtain ⟨typed, named⟩ := canonical.parameters p listed
    simp only [Parameter.lexemes, typed, List.forall_mem_cons]
    exact ⟨written_type, written_name named, by simp⟩
  have body : ∀ lexeme ∈ f.statements.flatMap Stmt.lexemes, Written lexeme := by
    intro lexeme member
    obtain ⟨s, listed, inside⟩ := List.mem_flatMap.mp member
    exact written_statement s (canonical.statements s listed) lexeme inside
  have result := written_return f.result canonical.result
  simp only [Function.lexemes, canonical.typed, List.cons_append, List.forall_mem_cons, List.forall_mem_append]
  exact ⟨written_type, written_name canonical.named, written_mark (by decide),
    ⟨⟨⟨parameters, written_mark (by decide), written_mark (by decide), body⟩, result⟩, written_mark (by decide),
      by simp⟩⟩

theorem written_program {p : Program} (canonical : p.Canonical) : ∀ lexeme ∈ p.lexemes, Written lexeme := by
  intro lexeme member
  obtain ⟨f, listed, inside⟩ := List.mem_flatMap.mp member
  exact written_function f (canonical.functions f listed) lexeme inside

end WordC.Scan

namespace WordC.Parse
open Grammar Scan

-- However the source of a canonical program is laid out, the program is read back from it.
theorem canonical_reads_back {p : Program} (canonical : p.Canonical) {text : String}
    (layout : Layout none p.lexemes text.toList) (file : String) :
    ∃ q, parseText file text = .ok q ∧ q.same p := by
  obtain ⟨tokens, scanned, lexemes⟩ := tokenize_layout layout (written_program canonical) file
  have spelled : Derives (tokens.map Token.lexeme) p := by
    rw [lexemes]
    exact canonical_derives canonical
  have read : ∃ q, parseTokens (Text.lines text) tokens = .ok q ∧ q.same p := exists_parsed_iff_derives.mpr spelled
  obtain ⟨q, parsed, same⟩ := read
  refine ⟨q, ?_, same⟩
  rw [parseText, scanned]
  exact parsed

-- Every level of operators, a call with two arguments and the largest literal.
def everyLevel : Program :=
  ⟨none, [⟨none, some "f", some "int", [⟨none, some "a1", some "int"⟩, ⟨none, some "int2", some "int"⟩],
    [.declare none (some "int") (some "b"),
      .expression none (.chain none .assign [.var none (some "a1"), .var none (some "b"),
        .chain none .sum [.call none (some "f") [.chain none .assign [.var none (some "b"), .number none (some 1)],
            .number none (some 18446744073709551615)],
          .chain none .product [.number none (some 2), .var none (some "b")], .number none (some 40)]])],
    ⟨none, .chain none .product [.var none (some "b"), .call none (some "f") []]⟩⟩]⟩

def everyLevelText : String :=
  "\tint f(int\r\na1,int int2)\x7bint b;a1= b =f (b=1,18446744073709551615)\n\n+2*b+40;return b*f( );\x7d \n"

theorem everyLevel_canonical : everyLevel.Canonical := by
  refine ⟨by decide, fun f member => ?_⟩
  rw [List.mem_singleton.mp member]
  refine ⟨by decide, rfl, by decide, ?_, by unfold Expr.Canonical; decide⟩
  intro s member
  rcases List.mem_cons.mp member with rfl | other
  · exact ⟨rfl, by decide⟩
  · rw [List.mem_singleton.mp other]
    unfold Stmt.Canonical Expr.Canonical
    decide

theorem everyLevel_reads_back :
    everyLevel.Canonical ∧ Layout none everyLevel.lexemes everyLevelText.toList ∧
      ∃ q, parseText "levels.c" everyLevelText = .ok q ∧ q.same everyLevel := by
  have layout : Layout none everyLevel.lexemes everyLevelText.toList := layout_of_isLayout (by decide +kernel)
  exact ⟨everyLevel_canonical, layout, canonical_reads_back everyLevel_canonical layout "levels.c"⟩

end WordC.Parse
