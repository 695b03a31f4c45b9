import WordC.Proofs.Text.Lines
import WordC.Proofs.Token.Layout

namespace WordC.Scan

-- A text that cannot lengthen the lexeme before it.
def Apart (rest : List Char) : Prop := ∀ c ∈ rest.head?, isBlank c

theorem apart_of_blanks (blank : ∀ c ∈ gap, isBlank c) (filled : gap ≠ []) (text : List Char) :
    Apart (gap ++ text) := by
  intro c first
  cases gap with
  | nil => exact absurd rfl filled
  | cons d gap =>
    obtain rfl : d = c := by simpa using first
    exact blank d List.mem_cons_self

-- A scan that passes the whole of a text goes on behind it as if it had started there, if nothing behind it lengthens
-- the lexeme that the text ends with.
theorem scanFrom_append_of_ends (ended : (scanFrom place text).stopped = none)
    (parted : ∀ front spelling lexeme, text = front ++ spelling → Spells spelling lexeme → Ends lexeme rest) :
    scanFrom place (text ++ rest) =
      { scanFrom (place.past text) rest with
        found := (scanFrom place text).found ++ (scanFrom (place.past text) rest).found } := by
  induction text using scan_induction generalizing place with
  | done => simp [scanFrom_nil, Position.past]
  | blank c behind blank ih =>
    rw [scanFrom_blank place blank] at ended ⊢
    rw [List.cons_append, scanFrom_blank place blank]
    refine ih ended fun front spelling lexeme split => parted (c :: front) spelling lexeme ?_
    rw [split, List.cons_append]
  | lexeme spelling lexeme behind spells fits ends ih =>
    have apart : Ends lexeme (behind ++ rest) := by
      cases behind with
      | nil => exact parted [] spelling lexeme (by simp) spells
      | cons d behind => exact ends
    rw [scanFrom_lexeme place spells fits ends] at ended ⊢
    have further := ih ended fun front last other split => parted (spelling ++ front) last other (by simp [split])
    rw [List.append_assoc, scanFrom_lexeme place spells fits apart, further, Position.past_append]
    rfl
  | fault text fault passed behind starts =>
    rw [scanFrom_fault place starts] at ended
    cases ended

theorem scanFrom_append (ended : (scanFrom place text).stopped = none) (apart : Apart rest) :
    scanFrom place (text ++ rest) =
      { scanFrom (place.past text) rest with
        found := (scanFrom place text).found ++ (scanFrom (place.past text) rest).found } := by
  apply scanFrom_append_of_ends ended
  intro front spelling lexeme split spells c first
  exact goesOn_other lexeme (not_word_of_blank (apart c first))

-- Where a scan starts shows in the places of what it finds and in nothing else.
theorem scanFrom_moved (place place' : Position) (text : List Char) :
    (scanFrom place' text).found.map Prod.snd = (scanFrom place text).found.map Prod.snd ∧
      (scanFrom place' text).stopped.map Prod.snd = (scanFrom place text).stopped.map Prod.snd := by
  induction text using scan_induction generalizing place place' with
  | done => simp [scanFrom_nil]
  | blank c behind blank ih =>
    rw [scanFrom_blank place blank, scanFrom_blank place' blank]
    exact ih _ _
  | lexeme spelling lexeme behind spells fits ends ih =>
    obtain ⟨found, stopped⟩ := ih (place.past spelling) (place'.past spelling)
    rw [scanFrom_lexeme place spells fits ends, scanFrom_lexeme place' spells fits ends]
    exact ⟨by simp [found], stopped⟩
  | fault text fault passed behind starts =>
    rw [scanFrom_fault place starts, scanFrom_fault place' starts]
    exact ⟨rfl, rfl⟩

theorem Result.lexeme_tokens (result : Result) (file : String) :
    (result.tokens file).map Token.lexeme = result.found.map Prod.snd := by
  simp [Result.tokens]

theorem tokenize_eq_ok_iff {tokens : List Token} : tokenize file text = .ok tokens ↔
    (scanFrom .start text.toList).stopped = none ∧ tokens = (scanFrom .start text.toList).tokens file := by
  simp only [tokenize, tokensFrom, State.start, State.scan]
  cases (scanFrom .start text.toList).stopped with
  | none => simp [eq_comm]
  | some stop => simp

-- The tokens of two texts with blanks between them are those of the first and then those of the second.
theorem tokenize_join {tokens tokens' : List Token} {gap : String} (scanned : tokenize file text = .ok tokens)
    (scanned' : tokenize file' text' = .ok tokens') (blank : ∀ c ∈ gap.toList, isBlank c) (filled : gap ≠ "")
    (whole : String) :
    ∃ joined, tokenize whole (text ++ gap ++ text') = .ok joined ∧
      joined.map Token.lexeme = tokens.map Token.lexeme ++ tokens'.map Token.lexeme := by
  obtain ⟨ended, rfl⟩ := tokenize_eq_ok_iff.mp scanned
  obtain ⟨ended', rfl⟩ := tokenize_eq_ok_iff.mp scanned'
  have apart : Apart (gap.toList ++ text'.toList) := apart_of_blanks blank (by simpa using filled) _
  have passed := scanFrom_append ended apart
  rw [scanFrom_gap _ blank] at passed
  obtain ⟨found, stopped⟩ := scanFrom_moved .start ((Position.start.past text.toList).past gap.toList) text'.toList
  rw [ended', Option.map_none, Option.map_eq_none_iff] at stopped
  refine ⟨_, tokenize_eq_ok_iff.mpr ⟨?_, rfl⟩, ?_⟩
  · simp only [String.toList_append, List.append_assoc, passed, stopped]
  · simp only [Result.lexeme_tokens, String.toList_append, List.append_assoc, passed, List.map_append, found]

end WordC.Scan
