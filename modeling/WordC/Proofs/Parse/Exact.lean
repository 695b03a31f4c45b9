import WordC.Proofs.Except
import WordC.Proofs.Parse.Expected
import WordC.Proofs.Parse.Reader
import WordC.Tree.Grammar

namespace WordC.Parse

-- Which token lists spell what.
abbrev Spelling (α : Type) := List Token → α → Prop

namespace Spelling

def one (test : Lexeme → Bool) : Spelling Token := fun used token => used = [token] ∧ test token.lexeme

def nothing (found : α) : Spelling α := fun used other => used = [] ∧ other = found

def join (first : Spelling α) (next : α → Spelling β) : Spelling β := fun used found =>
  ∃ left right middle, used = left ++ right ∧ first left middle ∧ next middle right found

def either (first second : Spelling α) : Spelling α := fun used found => first used found ∨ second used found

def image (spells : Spelling α) (f : α → β) : Spelling β := fun used found =>
  ∃ inner, spells used inner ∧ found = f inner

-- A spelling behind a mark, and one in front of it.
def after (wanted : Wanted) (spells : Spelling α) : Spelling α := fun used found =>
  ∃ mark right, used = mark :: right ∧ wanted.metBy mark.lexeme ∧ spells right found

def closedBy (spells : Spelling α) (wanted : Wanted) : Spelling α := fun used found =>
  ∃ left mark, used = left ++ [mark] ∧ wanted.metBy mark.lexeme ∧ spells left found

def placed (spells : Spelling α) : Spelling (Option Location × α) := fun used found =>
  found.1 = Grammar.place used ∧ spells used found.2

-- One spelling or more, with commas between.
inductive Listed (spells : Spelling α) : Spelling (List α) where
  | last : spells used found → Listed spells used [found]
  | next : spells left found → Wanted.comma.metBy mark.lexeme → Listed spells right more →
      Listed spells (left ++ mark :: right) (found :: more)

end Spelling

-- What a reader makes of the tokens in front depends on those that follow only through the next one.
def Settled (read : Reader α) (before ahead : List Token)
    (outcome : List Token → Except Refusal (α × List Token)) : Prop :=
  ∀ ahead', ahead'.head? = ahead.head? → read (before ++ ahead') = outcome ahead'

-- What a refusal says about the tokens read before it: with any token that fits they start a spelling.
structure Stopped (spells : Spelling α) (refusal : Refusal) (before ahead : List Token) : Prop where
  about : ahead.head? = refusal.found
  possible : ∃ lexeme, Fits refusal.expected lexeme
  fitting : ∀ token : Token, Fits refusal.expected token.lexeme →
    ∃ more found, spells (before ++ token :: more) found

-- A reader of a language, on lists shorter than a bound. It finds what a spelling spells whenever the next
-- token ends it. Where it refuses, it could have gone on with whatever fits the refusal.
structure Reads (bound : Nat) (spells : Spelling α) (ends : Option Token → Prop) (read : Reader α) :
    Prop where
  sound : ∀ {tokens found rest}, tokens.length < bound → read tokens = .ok (found, rest) →
    ∃ used, tokens = used ++ rest ∧ spells used found ∧
      Settled read used rest fun rest' => .ok (found, rest')
  complete : ∀ {used found rest}, spells used found → ends rest.head? → (used ++ rest).length < bound →
    read (used ++ rest) = .ok (found, rest)
  refused : ∀ {tokens refusal}, tokens.length < bound → read tokens = .error refusal →
    ∃ before ahead, tokens = before ++ ahead ∧ Stopped spells refusal before ahead ∧
      Settled read before ahead fun _ => .error refusal

def Always (_ : Option Token) : Prop := True

theorem head?_append_congr {ahead ahead' : List Token} (same : ahead'.head? = ahead.head?)
    (before : List Token) : (before ++ ahead').head? = (before ++ ahead).head? := by
  cases before with
  | nil => exact same
  | cons => rfl

-- A reader that goes on where another one stopped.
theorem Settled.andThen {first : Reader α} {next : α → Reader β}
    (settled : Settled first used (before ++ ahead) fun rest => .ok (found, rest))
    (later : Settled (next found) before ahead outcome) :
    Settled (first.andThen next) (used ++ before) ahead outcome := by
  intro ahead' same
  have read := settled _ (head?_append_congr same before)
  simp only [List.append_assoc, Reader.andThen, read, later _ same]

theorem Settled.choose_yes (settled : Settled yes before ahead outcome)
    (passed : test (before ++ ahead).head? = true) :
    Settled (Reader.choose test yes no) before ahead outcome := by
  intro ahead' same
  rw [Reader.choose, head?_append_congr same before, passed]
  exact settled _ same

theorem Settled.choose_no (settled : Settled no before ahead outcome)
    (failed : test (before ++ ahead).head? = false) :
    Settled (Reader.choose test yes no) before ahead outcome := by
  intro ahead' same
  rw [Reader.choose, head?_append_congr same before, failed]
  exact settled _ same

theorem Stopped.imp {spells : Spelling α} {spells' : Spelling β} (stopped : Stopped spells refusal before ahead)
    (goes_on : ∀ later found, spells (before ++ later) found →
      ∃ more found', spells' (before' ++ later ++ more) found') :
    Stopped spells' refusal before' ahead where
  about := stopped.about
  possible := stopped.possible
  fitting token fits := by
    obtain ⟨more, found, spelled⟩ := stopped.fitting token fits
    obtain ⟨more', found', spelled'⟩ := goes_on _ _ spelled
    exact ⟨more ++ more', found', by simpa using spelled'⟩

namespace Reads

theorem none_shorter : Reads 0 spells ends reader where
  sound short := absurd short (Nat.not_lt_zero _)
  complete _ _ short := absurd short (Nat.not_lt_zero _)
  refused short := absurd short (Nat.not_lt_zero _)

theorem mono (reads : Reads m spells ends reader) (less : n ≤ m) : Reads n spells ends reader where
  sound short := reads.sound (Nat.lt_of_lt_of_le short less)
  complete spelled ended short := reads.complete spelled ended (Nat.lt_of_lt_of_le short less)
  refused short := reads.refused (Nat.lt_of_lt_of_le short less)

-- The same language in other words, and ends that are easier to meet.
theorem congr {spells spells' : Spelling α} (reads : Reads n spells ends reader)
    (same : ∀ used found, spells used found ↔ spells' used found)
    (easier : ∀ next, ends' next → ends next) : Reads n spells' ends' reader where
  sound short run := by
    obtain ⟨used, split, spelled, settled⟩ := reads.sound short run
    exact ⟨used, split, (same _ _).mp spelled, settled⟩
  complete spelled ended short := reads.complete ((same _ _).mpr spelled) (easier _ ended) short
  refused short run := by
    obtain ⟨before, ahead, split, stopped, settled⟩ := reads.refused short run
    refine ⟨before, ahead, split, stopped.imp fun later found spelled => ?_, settled⟩
    exact ⟨[], found, by simpa using (same _ _).mp spelled⟩

theorem give (found : α) : Reads n (.nothing found) ends (Reader.give found) where
  sound _ run := by
    cases run
    exact ⟨[], rfl, ⟨rfl, rfl⟩, fun _ _ => rfl⟩
  complete spelled _ _ := by
    obtain ⟨rfl, rfl⟩ := spelled
    rfl
  refused _ run := by cases run

theorem take {refusal : Option Token → Refusal} (about : ∀ found, (refusal found).found = found)
    (possible : ∀ found, ∃ lexeme, Fits (refusal found).expected lexeme)
    (passes : ∀ found lexeme, Fits (refusal found).expected lexeme → test lexeme = true) :
    Reads n (.one test) ends (Reader.take test refusal) where
  sound {tokens found rest} _ run := by
    cases tokens with
    | nil => cases run
    | cons token after =>
      by_cases fits : test token.lexeme
      · simp only [Reader.take, fits, if_true] at run
        cases run
        exact ⟨[found], rfl, ⟨rfl, fits⟩, fun _ _ => by simp [Reader.take, fits]⟩
      · simp [Reader.take, fits] at run
  complete spelled _ _ := by
    obtain ⟨rfl, fits⟩ := spelled
    simp [Reader.take, fits]
  refused {tokens given} _ run := by
    -- nothing has been read, and every token that passes the test is a spelling
    have next : given = refusal tokens.head? ∧ ∀ ahead : List Token, ahead.head? = tokens.head? →
        Reader.take test refusal ahead = .error (refusal tokens.head?) := by
      cases tokens with
      | nil =>
        cases run
        refine ⟨rfl, fun ahead same => ?_⟩
        rw [List.head?_eq_none_iff.mp same]
        rfl
      | cons token after =>
        by_cases fits : test token.lexeme
        · simp [Reader.take, fits] at run
        · simp only [Reader.take, fits] at run
          cases run
          refine ⟨rfl, fun ahead same => ?_⟩
          obtain ⟨later, rfl⟩ := List.head?_eq_some_iff.mp same
          simp [Reader.take, fits]
    obtain ⟨rfl, locally⟩ := next
    refine ⟨[], tokens, rfl, ⟨(about _).symm, possible _, fun token fits => ?_⟩, locally⟩
    exact ⟨[], token, rfl, passes _ _ fits⟩

-- One reader after another. The first has to end where the second may start, and the second language must
-- not be empty: otherwise what the first has read could not be completed.
theorem andThen {first : Reader α} {next : α → Reader β} {spells : Spelling α} {later : α → Spelling β}
    (reads : Reads n spells ends first)
    (goes_on : ∀ used middle, spells used middle → Reads m (later middle) ends' (next middle))
    (enough : ∀ used middle, spells used middle → n ≤ used.length + m)
    (seam : ∀ left middle right found rest, spells left middle → later middle right found →
      ends' rest.head? → ends (right ++ rest).head?)
    (inhabited : ∀ used middle, spells used middle → ∃ right found, later middle right found) :
    Reads n (spells.join later) ends' (first.andThen next) where
  sound {tokens found rest} short run := by
    cases read : first tokens with
    | error refusal => simp [Reader.andThen, read] at run
    | ok result =>
      obtain ⟨middle, between⟩ := result
      simp only [Reader.andThen, read] at run
      obtain ⟨left, rfl, spelled, settled⟩ := reads.sound short read
      have room := enough _ _ spelled
      simp only [List.length_append] at short
      obtain ⟨right, rfl, spelled', settled'⟩ := (goes_on _ _ spelled).sound (by omega) run
      exact ⟨left ++ right, (List.append_assoc ..).symm, ⟨left, right, middle, rfl, spelled, spelled'⟩,
        settled.andThen settled'⟩
  complete {used found rest} spelled ended short := by
    obtain ⟨left, right, middle, rfl, spelled, spelled'⟩ := spelled
    have room := enough _ _ spelled
    simp only [List.append_assoc, List.length_append] at short
    have read : first (left ++ (right ++ rest)) = .ok (middle, right ++ rest) :=
      reads.complete spelled (seam _ _ _ _ _ spelled spelled' ended) (by simpa using short)
    have read' : next middle (right ++ rest) = .ok (found, rest) :=
      (goes_on _ _ spelled).complete spelled' ended (by simp only [List.length_append]; omega)
    simp only [List.append_assoc, Reader.andThen, read, read']
  refused {tokens refusal} short run := by
    cases read : first tokens with
    | error other =>
      simp only [Reader.andThen, read] at run
      cases run
      obtain ⟨before, ahead, rfl, stopped, settled⟩ := reads.refused short read
      refine ⟨before, ahead, rfl, stopped.imp fun later middle spelled => ?_, fun ahead' same => ?_⟩
      · obtain ⟨right, found, spelled'⟩ := inhabited _ _ spelled
        exact ⟨right, found, before ++ later, right, middle, rfl, spelled, spelled'⟩
      · simp only [Reader.andThen, settled ahead' same]
    | ok result =>
      obtain ⟨middle, between⟩ := result
      simp only [Reader.andThen, read] at run
      obtain ⟨left, rfl, spelled, settled⟩ := reads.sound short read
      have room := enough _ _ spelled
      simp only [List.length_append] at short
      obtain ⟨before, ahead, rfl, stopped, settled'⟩ := (goes_on _ _ spelled).refused (by omega) run
      refine ⟨left ++ before, ahead, (List.append_assoc ..).symm, stopped.imp fun later found spelled' => ?_,
        settled.andThen settled'⟩
      exact ⟨[], found, left, before ++ later, middle, by simp, spelled, spelled'⟩

-- One of two readers, where the next token tells their languages apart.
theorem choose {yes no : Reader α} {test : Option Token → Bool} {spells spells' : Spelling α}
    (reads : Reads n spells ends yes) (reads' : Reads n spells' ends no)
    (passes : ∀ used found rest, spells used found → ends rest.head? →
      test (used ++ rest).head? = true)
    (fails : ∀ used found rest, spells' used found → ends rest.head? →
      test (used ++ rest).head? = false) :
    Reads n (spells.either spells') ends (Reader.choose test yes no) where
  sound {tokens found rest} short run := by
    cases next : test tokens.head? with
    | true =>
      simp only [Reader.choose, next, if_true] at run
      obtain ⟨used, rfl, spelled, settled⟩ := reads.sound short run
      exact ⟨used, rfl, .inl spelled, settled.choose_yes next⟩
    | false =>
      simp only [Reader.choose, next, Bool.false_eq_true, if_false] at run
      obtain ⟨used, rfl, spelled, settled⟩ := reads'.sound short run
      exact ⟨used, rfl, .inr spelled, settled.choose_no next⟩
  complete spelled ended short := by
    rcases spelled with spelled | spelled
    · rw [Reader.choose, if_pos (passes _ _ _ spelled ended)]
      exact reads.complete spelled ended short
    · rw [Reader.choose, fails _ _ _ spelled ended]
      exact reads'.complete spelled ended short
  refused {tokens refusal} short run := by
    cases next : test tokens.head? with
    | true =>
      simp only [Reader.choose, next, if_true] at run
      obtain ⟨before, ahead, rfl, stopped, settled⟩ := reads.refused short run
      refine ⟨before, ahead, rfl, stopped.imp fun later found spelled => ?_, settled.choose_yes next⟩
      exact ⟨[], found, .inl (by simpa using spelled)⟩
    | false =>
      simp only [Reader.choose, next, Bool.false_eq_true, if_false] at run
      obtain ⟨before, ahead, rfl, stopped, settled⟩ := reads'.refused short run
      refine ⟨before, ahead, rfl, stopped.imp fun later found spelled => ?_, settled.choose_no next⟩
      exact ⟨[], found, .inr (by simpa using spelled)⟩

section

variable {spells : Spelling α} {reader : Reader α}

theorem map (reads : Reads n spells ends reader) (f : α → β) :
    Reads n (spells.image f) ends (reader.andThen fun inner => Reader.give (f inner)) := by
  have joined : Reads n (spells.join fun inner => .nothing (f inner)) ends
      (reader.andThen fun inner => Reader.give (f inner)) := by
    refine reads.andThen (fun _ inner _ => give (f inner)) (fun _ _ _ => Nat.le_add_left ..) ?_ ?_
    · intro left inner right found rest _ spelled ended
      obtain ⟨rfl, -⟩ := spelled
      exact ended
    · exact fun _ inner _ => ⟨[], f inner, rfl, rfl⟩
  refine joined.congr (fun used found => ⟨?_, ?_⟩) fun _ ended => ended
  · intro spelling
    obtain ⟨left, right, inner, rfl, spelled, rfl, rfl⟩ := spelling
    exact ⟨inner, by simpa using spelled, rfl⟩
  · intro spelling
    obtain ⟨inner, spelled, rfl⟩ := spelling
    exact ⟨used, [], inner, by simp, spelled, rfl, rfl⟩

theorem demand (wanted : Wanted) [Honest wanted] : Reads n (.one wanted.metBy) ends (demand wanted) :=
  take (fun _ => rfl) (fun _ => ⟨_, Honest.fits_sample⟩) fun _ _ fits => Honest.met fits rfl

-- A token has been taken, so the reader behind it has one token less to read.
theorem after (wanted : Wanted) [Honest wanted] (reads : Reads n spells ends reader)
    (inhabited : ∃ used found, spells used found) :
    Reads (n + 1) (spells.after wanted) ends ((Parse.demand wanted).andThen fun _ => reader) := by
  have joined : Reads (n + 1) ((Spelling.one wanted.metBy).join fun _ => spells) ends
      ((Parse.demand wanted).andThen fun _ => reader) := by
    have first : Reads (n + 1) (.one wanted.metBy) Always (Parse.demand wanted) := demand wanted
    refine first.andThen (fun _ _ _ => reads) ?_ (fun _ _ _ _ _ _ _ _ => trivial) fun _ _ _ => inhabited
    intro used mark spelled
    obtain ⟨rfl, -⟩ := spelled
    simp only [List.length_singleton]
    omega
  refine joined.congr (fun used found => ⟨?_, ?_⟩) fun _ ended => ended
  · intro spelling
    obtain ⟨left, right, mark, rfl, ⟨rfl, met⟩, spelled⟩ := spelling
    exact ⟨mark, right, rfl, met, spelled⟩
  · intro spelling
    obtain ⟨mark, right, rfl, met, spelled⟩ := spelling
    exact ⟨[mark], right, mark, rfl, ⟨rfl, met⟩, spelled⟩

theorem exists_mark (wanted : Wanted) : ∃ mark : Token, wanted.metBy mark.lexeme :=
  ⟨⟨wanted.sample, ⟨"", 1, 1⟩⟩, wanted.metBy_sample⟩

theorem closedBy [Honest wanted] (reads : Reads n spells ends reader)
    (closed : ∀ token : Token, wanted.metBy token.lexeme → ends (some token)) :
    Reads n (spells.closedBy wanted) ends' (reader.closedBy wanted) := by
  have joined : Reads n (spells.join fun inner => (Spelling.one wanted.metBy).image fun _ => inner) ends'
      (reader.closedBy wanted) := by
    refine reads.andThen (fun _ inner _ => (demand wanted).map fun _ => inner)
      (fun _ _ _ => Nat.le_add_left ..) ?_ ?_
    · intro left inner right found rest _ spelled _
      obtain ⟨mark, ⟨rfl, met⟩, -⟩ := spelled
      exact closed mark met
    · intro used inner spelled
      obtain ⟨mark, met⟩ := exists_mark wanted
      exact ⟨[mark], inner, mark, ⟨rfl, met⟩, rfl⟩
  refine joined.congr (fun used found => ⟨?_, ?_⟩) fun _ ended => ended
  · intro spelling
    obtain ⟨left, right, inner, rfl, spelled, mark, ⟨rfl, met⟩, rfl⟩ := spelling
    exact ⟨left, mark, rfl, met, spelled⟩
  · intro spelling
    obtain ⟨left, mark, rfl, met, spelled⟩ := spelling
    exact ⟨left, [mark], found, rfl, spelled, mark, ⟨rfl, met⟩, rfl⟩

theorem after_inhabited (wanted : Wanted) (inhabited : ∃ used found, spells used found) :
    ∃ used found, spells.after wanted used found :=
  let ⟨used, found, spelled⟩ := inhabited
  let ⟨mark, met⟩ := exists_mark wanted
  ⟨mark :: used, found, mark, used, rfl, met, spelled⟩

theorem closedBy_inhabited (wanted : Wanted) (inhabited : ∃ used found, spells used found) :
    ∃ used found, spells.closedBy wanted used found :=
  let ⟨used, found, spelled⟩ := inhabited
  let ⟨mark, met⟩ := exists_mark wanted
  ⟨used ++ [mark], found, used, mark, rfl, met, spelled⟩

theorem here_append {used : List Token} (filled : used ≠ []) (rest : List Token) :
    here (used ++ rest) = Grammar.place used := by
  cases used with
  | nil => contradiction
  | cons => rfl

-- The place of a spelling is that of its first token, so it must not be empty.
theorem placed (reads : Reads n spells ends reader) (filled : ∀ used found, spells used found → used ≠ []) :
    Reads n spells.placed ends reader.placed where
  sound {tokens found rest} short run := by
    obtain ⟨⟨inner, left⟩, read, made⟩ := map_eq_ok.mp run
    cases made
    obtain ⟨used, rfl, spelled, settled⟩ := reads.sound short read
    have place := here_append (filled _ _ spelled)
    refine ⟨used, rfl, ⟨place _, spelled⟩, fun rest' same => ?_⟩
    simp only [Reader.placed, settled rest' same, Except.map, place]
  complete {used found rest} spelled ended short := by
    obtain ⟨place, inner⟩ := found
    obtain ⟨rfl, spelled⟩ := spelled
    simp only [Reader.placed, reads.complete spelled ended short, Except.map,
      here_append (filled _ _ spelled)]
  refused {tokens refusal} short run := by
    have read := map_eq_error.mp run
    obtain ⟨before, ahead, split, stopped, settled⟩ := reads.refused short read
    refine ⟨before, ahead, split, stopped.imp fun later inner spelled => ?_, fun ahead' same => ?_⟩
    · exact ⟨[], (_, inner), rfl, by simpa using spelled⟩
    · simp only [Reader.placed, settled ahead' same, Except.map]

theorem listed_iff {used : List Token} {found : List α} :
    Spelling.Listed spells used found ↔ (spells.join fun first =>
      (((Spelling.Listed spells).image (first :: ·)).after .comma).either (.nothing [first])) used found := by
  constructor
  · intro listed
    cases listed with
    | last spelled => exact ⟨used, [], _, by simp, spelled, .inr ⟨rfl, rfl⟩⟩
    | next spelled comma more =>
      exact ⟨_, _, _, rfl, spelled, .inl ⟨_, _, rfl, comma, _, more, rfl⟩⟩
  · intro spelling
    obtain ⟨left, right, first, rfl, spelled, later⟩ := spelling
    rcases later with ⟨mark, later, rfl, comma, more, listed, rfl⟩ | ⟨rfl, rfl⟩
    · exact .next spelled comma listed
    · simpa using Spelling.Listed.last spelled

theorem listed_inhabited (inhabited : ∃ used found, spells used found) :
    ∃ used found, Spelling.Listed spells used found :=
  let ⟨used, found, spelled⟩ := inhabited
  ⟨used, [found], .last spelled⟩

-- Spellings between commas. The reader calls itself behind each comma, so the induction is on the bound.
theorem listed {list : Reader (List α)}
    (recurs : list = reader.andThen fun first =>
      Reader.choose (meets .comma)
        ((Parse.demand .comma).andThen fun _ => list.andThen fun more => Reader.give (first :: more))
        (Reader.give [first]))
    (reads : Reads n spells ends reader) (inhabited : ∃ used found, spells used found)
    (goes_on : ∀ token : Token, Wanted.comma.metBy token.lexeme → ends (some token)) :
    Reads n (.Listed spells) (fun next => ends next ∧ meets .comma next = false) list := by
  have upTo (m : Nat) (less : m ≤ n) :
      Reads m (.Listed spells) (fun next => ends next ∧ meets .comma next = false) list := by
    induction m with
    | zero => exact none_shorter
    | succ m ih =>
      have later (first : α) : Reads (m + 1)
          ((((Spelling.Listed spells).image (first :: ·)).after .comma).either (.nothing [first]))
          (fun next => ends next ∧ meets .comma next = false)
          (Reader.choose (meets .comma)
            ((Parse.demand .comma).andThen fun _ => list.andThen fun more => Reader.give (first :: more))
            (Reader.give [first])) := by
        refine choose (((ih (by omega)).map (first :: ·)).after .comma ?_) (give [first]) ?_ ?_
        · obtain ⟨used, found, spelled⟩ := listed_inhabited inhabited
          exact ⟨used, first :: found, found, spelled, rfl⟩
        · intro used found rest spelled _
          obtain ⟨mark, right, rfl, comma, -⟩ := spelled
          exact comma
        · intro used found rest spelled ended
          obtain ⟨rfl, -⟩ := spelled
          exact ended.2
      rw [recurs]
      refine ((reads.mono less).andThen (fun _ first _ => later first) (fun _ _ _ => Nat.le_add_left ..)
        ?_ fun _ first _ => ⟨[], [first], .inr ⟨rfl, rfl⟩⟩).congr (fun _ _ => listed_iff.symm) fun _ => id
      intro left first right found rest _ spelled ended
      rcases spelled with ⟨mark, right, rfl, comma, -⟩ | ⟨rfl, -⟩
      · exact goes_on mark comma
      · exact ended.1
  exact upTo n (Nat.le_refl n)

end

end Reads

end WordC.Parse
