import WordC.Proofs.Command.Effects

namespace WordC

-- The file beside an input is another one, unless the input has the suffix of a module.
theorem FileSystem.beside_apart {fs : FileSystem} {raw : String} {place there : Place}
    (somewhere : (Path.ofText raw).parts ≠ []) (located : fs.locate (Path.ofText raw).text = .ok place)
    (located' : fs.locateForWriting ((Path.ofText raw).withSuffix ".ll").text = .ok there)
    (other : ¬∃ base, base ≠ "" ∧ (Path.ofText raw).name = base ++ ".ll") : place ≠ there := by
  obtain ⟨way, pieces, pieces', start⟩ := Path.exists_beside somewhere
  obtain ⟨named, up⟩ := Path.suffixed_not_idle (Path.ofText raw).stem
  refine FileSystem.places_apart pieces pieces' ?_ (Path.name_not_idle somewhere) named up ?_ located located'
  · unfold FileSystem.origin
    simp only [start]
  · intro same
    exact other ⟨_, Path.stem_ne_empty somewhere, same⟩

namespace Command

variable {backend : Backend} {execute : Runner → Module → Logged Int} {fs : FileSystem} {given : List Item}
  {r : Request}

-- The two ways in which the files can be after a request: as before, or with the module at its target.
inductive Leaves (backend : Backend) (fs : FileSystem) (r : Request) : FileSystem → Prop where
  | same : Leaves backend fs r fs
  | written : Source fs r text → r.stages backend text = .ok (some made) → r.target = some path →
      fs.locateForWriting path.text = .ok place →
      Leaves backend fs r (fs.put place (Session.encode made.module.text))

theorem play_written {made : Compiled} (source : Source fs r text)
    (compiled : r.stages backend text = .ok (some made)) (wanted : r.target = some path)
    (placed : fs.locateForWriting path.text = .ok place) :
    ((r.perform backend).play execute fs).2 = fs.put place (Session.encode made.module.text) := by
  obtain ⟨log, process⟩ := Request.process_compiled compiled
  rw [play_perform source, process, Request.play_deliver_written log wanted placed, Request.play_finish]

theorem play_leaves (backend : Backend) (execute : Runner → Module → Logged Int) (fs : FileSystem) (r : Request) :
    Leaves backend fs r ((r.perform backend).play execute fs).2 := by
  cases stored : fs.read r.input.text with
  | error trouble =>
    simp only [Request.perform, Session.play, stored, Except.mapError]
    exact .same
  | ok bytes =>
    cases decoded : sourceText bytes with
    | error failure =>
      simp only [Request.perform, Session.play, stored, decoded, Except.mapError]
      exact .same
    | ok text =>
      have source : Source fs r text := ⟨bytes, stored, decoded⟩
      cases staged : r.stages backend text with
      | error failure =>
        obtain ⟨log, process⟩ := Request.process_failed staged
        rw [play_perform source, process]
        exact .same
      | ok made =>
        cases made with
        | none =>
          obtain ⟨shown, log, process⟩ := Request.process_dumped staged
          rw [play_perform source, process]
          exact .same
        | some made =>
          obtain ⟨log, process⟩ := Request.process_compiled staged
          cases wanted : r.target with
          | none =>
            rw [play_perform source, process, Request.play_deliver_kept log wanted, Request.play_finish]
            exact .same
          | some path =>
            cases placed : fs.locateForWriting path.text with
            | error trouble =>
              rw [play_perform source, process, Request.play_deliver_blocked log wanted placed]
              exact .same
            | ok place =>
              rw [play_written source staged wanted placed]
              exact .written source staged wanted placed

-- A command that lets a module be written over the text it was made of. It asks neither for a dump nor for a run, and
-- its input compiles and has the suffix of a module.
structure Overwrites (backend : Backend) (fs : FileSystem) (given : List Item) (r : Request) (made : Compiled) :
    Prop where
  admitted : Admitted fs given r
  compiled : ∃ text, Source fs r text ∧ r.stages backend text = .ok (some made)
  still : r.run = false
  suffixed : ∃ base, base ≠ "" ∧ r.input.name = base ++ ".ll"

-- The input of a request that is let through.
theorem Admitted.located (admitted : Admitted fs given r) (listed : path ∈ operands given) :
    r.input = Path.ofText path ∧ r.input.parts ≠ [] ∧ ∃ place content, fs.locate path = .ok place ∧
      fs.locate r.input.text = .ok place ∧ fs.entry? place = some (.file content) := by
  obtain ⟨only, runner, alone, -, rfl⟩ := request_eq_ok_iff.mp admitted.requested
  obtain rfl : path = only := by simpa [alone] using listed
  have seen := admitted.input path listed
  obtain ⟨place, content, located, held⟩ := FileSystem.look_eq_file_iff.mp seen
  obtain ⟨bytes, stored⟩ := FileSystem.exists_read_of_look seen
  exact ⟨rfl, FileSystem.parts_ne_nil_of_read stored, place, content, located, FileSystem.locate_text located, held⟩

-- Without an output path, the target is beside the input, and there is none where the module is to be run.
theorem Admitted.target_eq_some_iff (admitted : Admitted fs given r) (unset : valueOf given .output = none) :
    r.target = some path ↔ r.run = false ∧ path = r.input.withSuffix ".ll" := by
  obtain ⟨only, runner, -, -, rfl⟩ := request_eq_ok_iff.mp admitted.requested
  simp only [Request.target, unset, Option.map_none]
  cases hasFlag given .run <;> simp [eq_comm]

theorem Overwrites.read_eq {made : Compiled} (overwrites : Overwrites backend fs given r made)
    (unset : valueOf given .output = none) (listed : path ∈ operands given) :
    ((r.perform backend).play execute fs).2.read path = .ok (Session.encode made.module.text) := by
  obtain ⟨admitted, ⟨text, source, compiled⟩, still, suffixed⟩ := overwrites
  obtain ⟨input, somewhere, place, content, located, located', held⟩ := admitted.located listed
  have wanted := (admitted.target_eq_some_iff unset).mpr ⟨still, rfl⟩
  rw [input] at somewhere suffixed located'
  rw [input, (Path.withSuffix_eq_self_iff somewhere).mpr suffixed] at wanted
  have free : fs.isDirectory place = false := by simp [FileSystem.isDirectory, held]
  have placed : fs.locateForWriting (Path.ofText path).text = .ok place := by
    simp [FileSystem.locateForWriting, located', free]
  have placed' : fs.locateForWriting path = .ok place := by
    simp [FileSystem.locateForWriting, located, free]
  rw [play_written source compiled wanted placed]
  exact FileSystem.read_put placed' _

theorem Admitted.read_eq (admitted : Admitted fs given r) (unset : valueOf given .output = none)
    (listed : path ∈ operands given) (never : ∀ made, ¬Overwrites backend fs given r made) :
    ((r.perform backend).play execute fs).2.read path = fs.read path := by
  obtain ⟨input, somewhere, place, content, located, located', held⟩ := admitted.located listed
  have leaves := play_leaves backend execute fs r
  generalize ((r.perform backend).play execute fs).2 = after at leaves ⊢
  cases leaves with
  | same => rfl
  | @written text made target there source compiled wanted placed =>
    obtain ⟨still, rfl⟩ := (admitted.target_eq_some_iff unset).mp wanted
    have other : ¬∃ base, base ≠ "" ∧ r.input.name = base ++ ".ll" := fun suffixed =>
      never made ⟨admitted, ⟨text, source, compiled⟩, still, suffixed⟩
    rw [input] at somewhere other located' placed
    obtain ⟨filled, free⟩ := FileSystem.locateForWriting_free placed
    have apart : place ≠ there := FileSystem.beside_apart somewhere located' placed other
    exact FileSystem.read_put_other located apart filled free _

-- Without an output path, the input keeps its content, unless it is overwritten with its own module.
theorem input_kept_or_overwritten (backend : Backend) (execute : Runner → Module → Logged Int) (fs : FileSystem)
    (arguments : List String) :
    (∀ fault, items arguments = .error fault → ((session backend arguments).play execute fs).2 = fs) ∧
    ∀ given, items arguments = .ok given → valueOf given .output = none → ∀ path ∈ operands given,
      (∀ r made, Overwrites backend fs given r made →
        ((session backend arguments).play execute fs).2.read path = .ok (Session.encode made.module.text)) ∧
      ((∀ r made, ¬Overwrites backend fs given r made) →
        ((session backend arguments).play execute fs).2.read path = fs.read path) := by
  constructor
  · intro fault unread
    simp [session, unread, Session.play]
  · intro given read unset path listed
    constructor
    · intro r made overwrites
      rw [play_session_admitted read overwrites.admitted]
      exact overwrites.read_eq unset listed
    · intro never
      by_cases admitted : ∃ r, Admitted fs given r
      · obtain ⟨r, admitted⟩ := admitted
        rw [play_session_admitted read admitted]
        exact admitted.read_eq unset listed (never r)
      · cases answered : given.findSome? immediate with
        | some report => simp [session, read, answered, Session.play]
        | none =>
          obtain ⟨fault, played, -⟩ := play_session_refused read answered (not_exists.mp admitted)
          rw [played]

theorem workshop_input_kept :
    (∀ r made, ¬Overwrites .builtIn (workshop negativeReturn) [.flag .noVerify, .operand "a.c"] r made) ∧
      ((session .builtIn ["--no-verify", "a.c"]).playOn bareHost (workshop negativeReturn)).2.read "a.c" =
        (workshop negativeReturn).read "a.c" := by
  have read : items ["--no-verify", "a.c"] = .ok [.flag .noVerify, .operand "a.c"] := by decide +kernel
  have listed : "a.c" ∈ operands [.flag .noVerify, .operand "a.c"] := by decide +kernel
  have never (r : Request) (made : Compiled) :
      ¬Overwrites .builtIn (workshop negativeReturn) [.flag .noVerify, .operand "a.c"] r made := by
    rintro ⟨admitted, -, -, base, -, named⟩
    obtain ⟨input, -, -⟩ := admitted.located listed
    rw [input, show (Path.ofText "a.c").name = "a.c" by decide +kernel] at named
    have last := congrArg (fun text => text.toList.getLast?) named
    simp at last
  obtain ⟨-, kept⟩ := input_kept_or_overwritten .builtIn (fun runner m => runner.run bareHost m usualEntry)
    (workshop negativeReturn) ["--no-verify", "a.c"]
  obtain ⟨-, kept⟩ := kept _ read (by decide +kernel) "a.c" listed
  exact ⟨never, kept never⟩

-- A place to work in that holds one file with the suffix of a module.
def suffixedWorkshop : FileSystem :=
  ⟨⟨[(["a.b.ll"], .file (Session.encode "int main()\x7breturn 1;\x7d"))]⟩, []⟩

-- A program in a file that has the suffix of a module is lost.
theorem suffixed_input_lost :
    ((session .builtIn ["a.b.ll"]).playOn bareHost suffixedWorkshop).2.read "a.b.ll" ≠
      suffixedWorkshop.read "a.b.ll" := by
  decide +kernel

end Command

end WordC
