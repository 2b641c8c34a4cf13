/-
  Where paths lead, and what is read and written there.

  1. Names.  A path is made of pieces without slashes, joined by slashes, and its names are the
     pieces that are not empty.  `Names` says this by joining, so it does not depend on how a path
     is cut; the names found by cutting it are the only ones (`names_iff`).

  2. Walks.  `Walk` has a case for each kind of name: every name needs a directory to be looked up
     in, a dot stays in it, two dots go back, any other name goes down.  `Leads` is the walk along
     the names of a path, from the root or from the working directory.  Following a path finds the
     spot that it leads to, and fails if it leads to none (`resolve_eq_ok`).

  3. Reading and writing.  A path is read iff it leads to a file (`read_eq_ok`), and writing fails
     iff it leads nowhere or to a directory (`write_eq_error`).  `Written` says what else writing
     means for the files.  The path still leads to its spot afterwards, because a walk goes through
     directories and the entry that was set is none (`Walk.set`).
-/
import ScriptTree.CommandLine.Files
import ScriptTree.Proofs.Success

namespace ScriptTree.CommandLine.Files

open Render

/-! ## The names of a path -/

/-- A path joins pieces by slashes, and these are the names among them. -/
def Names (path : String) (ns : List String) : Prop :=
  ∃ pieces : List (List Char), pieces ≠ [] ∧ (∀ piece ∈ pieces, '/' ∉ piece) ∧
    path.toList = ['/'].intercalate pieces ∧ ns = (pieces.filter (· ≠ [])).map String.ofList

theorem not_mem_of_mem_splitOn {c : Char} {cs piece : List Char} (h : piece ∈ cs.splitOn c) :
    c ∉ piece := by
  induction cs generalizing piece with
  | nil =>
    rw [List.splitOn_nil, List.mem_singleton] at h
    simp [h]
  | cons x cs ih =>
    rw [List.splitOn_cons_eq_if_modifyHead] at h
    split at h
    · rcases List.mem_cons.mp h with rfl | h
      · simp
      · exact ih h
    · next hx =>
      cases hcut : cs.splitOn c with
      | nil => exact absurd hcut (List.splitOn_ne_nil c cs)
      | cons first rest =>
        rw [hcut, List.modifyHead_cons] at h
        rcases List.mem_cons.mp h with rfl | h
        · have hfirst : c ∉ first := ih (by simp [hcut])
          simpa [hfirst] using Ne.symm (by simpa using hx : x ≠ c)
        · exact ih (by simp [hcut, h])

/-- A path has one list of names, which cutting it finds. -/
theorem names_iff {path : String} {ns : List String} : Names path ns ↔ ns = names path := by
  constructor
  · rintro ⟨pieces, hne, hslash, hpath, rfl⟩
    rw [names, hpath, List.splitOn_intercalate '/' hslash hne]
  · rintro rfl
    exact ⟨path.toList.splitOn '/', List.splitOn_ne_nil _ _, fun _ => not_mem_of_mem_splitOn,
      (List.intercalate_splitOn '/').symm, rfl⟩

/-! ## Walks -/

/-- Names lead from one spot to another.  Each is looked up in a directory. -/
inductive Walk (fs : Files) : List String → List String → List String → Prop
  | stop (spot : List String) : Walk fs spot [] spot
  | stay {spot rest final : List String} (h : fs.get? spot = some .directory)
      (hrest : Walk fs spot rest final) : Walk fs spot ("." :: rest) final
  | back {spot rest final : List String} (h : fs.get? spot = some .directory)
      (hrest : Walk fs spot.dropLast rest final) : Walk fs spot (".." :: rest) final
  | down {spot rest final : List String} {name : String} (hname : name ≠ "." ∧ name ≠ "..")
      (h : fs.get? spot = some .directory) (hrest : Walk fs (spot ++ [name]) rest final) :
      Walk fs spot (name :: rest) final

/-- A path leads to a spot: from the root if it begins with a slash and from the working directory
    otherwise.  If it ends in a slash, there has to be a directory to stay in. -/
def Leads (fs : Files) (path : String) (spot : List String) : Prop :=
  ∃ ns, Names path ns ∧ fs.Walk (if path.toList.head? = some '/' then [] else fs.here)
    (if path.toList.getLast? = some '/' then ns ++ ["."] else ns) spot

section

variable {fs : Files} {path : String} {spot : List String}

theorem enter_eq_ok {u : Unit} : fs.enter spot = .ok u ↔ fs.get? spot = some .directory := by
  unfold enter
  split <;> simp_all

theorem walk_nil {final : List String} : fs.Walk spot [] final ↔ spot = final := by
  constructor
  · intro h
    cases h
    rfl
  · rintro rfl
    exact .stop spot

/-- The three kinds of names, by the one step that takes them all. -/
theorem walk_cons {name : String} {rest final : List String} :
    fs.Walk spot (name :: rest) final ↔
      fs.get? spot = some .directory ∧ fs.Walk (step spot name) rest final := by
  constructor
  · intro h
    cases h with
    | stay h hrest => exact ⟨h, hrest⟩
    | back h hrest => exact ⟨h, hrest⟩
    | down hname h hrest =>
      rw [step, if_neg hname.1, if_neg hname.2]
      exact ⟨h, hrest⟩
  · rintro ⟨h, hrest⟩
    unfold step at hrest
    split at hrest
    · next hname =>
      rw [hname]
      exact .stay h hrest
    · next hdot =>
      split at hrest
      · next hname =>
        rw [hname]
        exact .back h hrest
      · next hdots => exact .down ⟨hdot, hdots⟩ h hrest

theorem follow_eq_ok {ns final : List String} :
    fs.follow spot ns = .ok final ↔ fs.Walk spot ns final := by
  induction ns generalizing spot with
  | nil => rw [follow, walk_nil, Except.ok.injEq]
  | cons name rest ih => simp only [follow, bind_eq_ok, enter_eq_ok, exists_const, ih, walk_cons]

/-- Following a path finds where it leads. -/
theorem resolve_eq_ok : fs.resolve path = .ok spot ↔ fs.Leads path spot := by
  have hends : (names path ++ if meansDirectory path then ["."] else []) =
      if path.toList.getLast? = some '/' then names path ++ ["."] else names path := by
    unfold meansDirectory
    split <;> simp_all
  rw [resolve, hends, follow_eq_ok, start]
  simp only [Leads, names_iff, exists_eq_left]

example :
    let fs : Files := ⟨[(["home"], .directory), (["tmp"], .directory)], ["home"], .ofNat 9 0o022⟩
    (fs.resolve "a.sh").toOption = some ["home", "a.sh"] ∧
      (fs.resolve "..//tmp/./a.sh").toOption = some ["tmp", "a.sh"] ∧
      (fs.resolve "/tmp/a.sh").toOption = some ["tmp", "a.sh"] ∧
      (fs.resolve "/tmp/b/a.sh").toOption = none := by
  decide +kernel

theorem Leads.unique {other : List String} (h : fs.Leads path spot) (h' : fs.Leads path other) :
    spot = other := by
  have hsame := (resolve_eq_ok.mpr h).symm.trans (resolve_eq_ok.mpr h')
  exact Except.ok.inj hsame

/-- Where a path ends in a slash, there is a directory. -/
theorem Walk.get?_of_dot {ns final : List String} (h : fs.Walk spot (ns ++ ["."]) final) :
    fs.get? final = some .directory := by
  induction ns generalizing spot with
  | nil =>
    obtain ⟨hspot, h⟩ := walk_cons.mp h
    cases walk_nil.mp h
    exact hspot
  | cons name rest ih => exact ih (walk_cons.mp h).2

theorem Leads.not_meansDirectory (h : fs.Leads path spot) (hspot : fs.get? spot ≠ some .directory) :
    meansDirectory path = false := by
  obtain ⟨ns, _, hwalk⟩ := h
  by_cases hlast : path.toList.getLast? = some '/'
  · rw [if_pos hlast] at hwalk
    exact absurd hwalk.get?_of_dot hspot
  · simp [Files.meansDirectory, hlast]

/-! ## Reading -/

/-- A path leads to a file with this content. -/
def Holds (fs : Files) (path : String) (content : ByteArray) : Prop :=
  ∃ spot mode, fs.Leads path spot ∧ fs.get? spot = some (.file content mode)

theorem read_eq_ok {content : ByteArray} : fs.read path = .ok content ↔ fs.Holds path content := by
  constructor
  · intro h
    obtain ⟨spot, hspot, h⟩ := bind_eq_ok.mp h
    split at h
    · next mode hget =>
      cases h
      exact ⟨spot, mode, resolve_eq_ok.mp hspot, hget⟩
    · exact nomatch h
    · exact nomatch h
  · rintro ⟨spot, mode, hleads, hget⟩
    simp [Files.read, resolve_eq_ok.mpr hleads, hget, bind, Except.bind]

/-! ## Writing -/

theorem lookup_setEntry_self (spot : List String) (e : Entry) (es : List (List String × Entry)) :
    (setEntry spot e es).lookup spot = some e := by
  induction es with
  | nil => simp [setEntry]
  | cons entry es ih =>
    obtain ⟨p, old⟩ := entry
    rw [setEntry]
    split
    · next hp => simp [hp]
    · next hp => rw [List.lookup_cons, beq_false_of_ne (Ne.symm hp), ih]

theorem lookup_setEntry_ne {other : List String} (h : other ≠ spot) (e : Entry)
    (es : List (List String × Entry)) : (setEntry spot e es).lookup other = es.lookup other := by
  induction es with
  | nil => rw [setEntry, List.lookup_cons, beq_false_of_ne h]
  | cons entry es ih =>
    obtain ⟨p, old⟩ := entry
    rw [setEntry]
    split
    · next hp => rw [List.lookup_cons, List.lookup_cons, hp, beq_false_of_ne h]
    · rw [List.lookup_cons, List.lookup_cons, ih]

/-- The entry that was set is there; the root cannot be set. -/
theorem get?_set_self (fs : Files) (h : spot ≠ []) (e : Entry) :
    (fs.set spot e).get? spot = some e := by
  cases spot with
  | nil => exact absurd rfl h
  | cons name rest => exact lookup_setEntry_self _ e fs.entries

/-- All other entries are as they were. -/
theorem get?_set_ne (fs : Files) {other : List String} (h : other ≠ spot) (e : Entry) :
    (fs.set spot e).get? other = fs.get? other := by
  cases other with
  | nil => rfl
  | cons name rest => exact lookup_setEntry_ne h e fs.entries

theorem get?_set_directory (hspot : fs.get? spot ≠ some .directory) (e : Entry)
    {other : List String} (h : fs.get? other = some .directory) :
    (fs.set spot e).get? other = some .directory := by
  have hne : other ≠ spot := by
    rintro rfl
    exact hspot h
  rw [get?_set_ne fs hne, h]

/-- Names lead where they led before, since they go through directories and none was set. -/
theorem Walk.set (hspot : fs.get? spot ≠ some .directory) (e : Entry)
    {first ns final : List String} (h : fs.Walk first ns final) :
    (fs.set spot e).Walk first ns final := by
  induction h with
  | stop first => exact .stop first
  | stay h _ ih => exact .stay (get?_set_directory hspot e h) ih
  | back h _ ih => exact .back (get?_set_directory hspot e h) ih
  | down hname h _ ih => exact .down hname (get?_set_directory hspot e h) ih

theorem Leads.set (h : fs.Leads path spot) (hspot : fs.get? spot ≠ some .directory) (e : Entry) :
    (fs.set spot e).Leads path spot := by
  obtain ⟨ns, hns, hwalk⟩ := h
  exact ⟨ns, hns, hwalk.set hspot e⟩

/-- A file can be written wherever a path leads to no directory. -/
theorem target_eq_ok :
    fs.target path = .ok spot ↔ fs.Leads path spot ∧ fs.get? spot ≠ some .directory := by
  unfold target
  constructor
  · intro h
    split at h
    · simp at h
    · obtain ⟨final, hfinal, h⟩ := bind_eq_ok.mp h
      split at h
      · exact nomatch h
      · next hdirectory =>
        cases h
        exact ⟨resolve_eq_ok.mp hfinal, hdirectory⟩
  · rintro ⟨hleads, hspot⟩
    rw [if_neg (by simp [hleads.not_meansDirectory hspot])]
    refine bind_eq_ok.mpr ⟨spot, resolve_eq_ok.mpr hleads, ?_⟩
    split
    · next hdirectory => exact absurd hdirectory hspot
    · rfl

/-- One file has been written under a path, and nothing else has changed. -/
structure Written (fs : Files) (path : String) (content : ByteArray) (makeExecutable : Bool)
    (fs' : Files) (spot : List String) (mode : Mode) : Prop where
  /-- The path leads to the file, -/
  leads : fs.Leads path spot
  notDirectory : fs.get? spot ≠ some .directory
  /-- which afterwards has the content, also for a reader who takes the path. -/
  file : fs'.get? spot = some (.file content mode)
  holds : fs'.Holds path content
  /-- All three executable bits are set if they were to be. -/
  made : makeExecutable = true → mode &&& .ofNat 9 0o111 = .ofNat 9 0o111
  /-- A file that was there has them added to its mode, which is the same as before otherwise. -/
  kept : ∀ before old, fs.get? spot = some (.file before old) →
    mode = if makeExecutable then old ||| .ofNat 9 0o111 else old
  /-- A new file that is not made executable has none of them. -/
  fresh : makeExecutable = false → fs.get? spot = none → mode &&& .ofNat 9 0o111 = .ofNat 9 0
  others : ∀ other, other ≠ spot → fs'.get? other = fs.get? other
  here : fs'.here = fs.here
  mask : fs'.mask = fs.mask

theorem or_executable_and_executable (mode : Mode) :
    (mode ||| Mode.executable) &&& Mode.executable = Mode.executable := by
  ext i hi
  rw [BitVec.getElem_and, BitVec.getElem_or]
  cases Mode.executable[i] <;> simp

theorem modeAt_of_file {content : ByteArray} {mode : Mode}
    (h : fs.get? spot = some (.file content mode)) : fs.modeAt spot = mode := by
  rw [modeAt, h]

/-- Whatever the mask, a new file is executable by nobody. -/
theorem modeAt_of_none (h : fs.get? spot = none) :
    fs.modeAt spot &&& Mode.executable = .ofNat 9 0 := by
  have hbits : Mode.readWrite &&& Mode.executable = .ofNat 9 0 := by decide
  rw [modeAt, h]
  show Mode.readWrite &&& ~~~fs.mask &&& Mode.executable = .ofNat 9 0
  rw [BitVec.and_assoc, BitVec.and_comm (~~~fs.mask), ← BitVec.and_assoc, hbits]
  exact BitVec.zero_and

theorem written_set {content : ByteArray} {makeExecutable : Bool} {mode : Mode}
    (hleads : fs.Leads path spot) (hspot : fs.get? spot ≠ some .directory)
    (hmode : mode = if makeExecutable then fs.modeAt spot ||| Mode.executable else fs.modeAt spot) :
    fs.Written path content makeExecutable (fs.set spot (.file content mode)) spot mode := by
  have hne : spot ≠ [] := by
    rintro rfl
    exact hspot rfl
  have hfile := fs.get?_set_self hne (.file content mode)
  refine ⟨hleads, hspot, hfile, ⟨spot, mode, hleads.set hspot _, hfile⟩, ?_, ?_, ?_, ?_, rfl, rfl⟩
  · rintro rfl
    rw [hmode, if_pos rfl]
    exact or_executable_and_executable _
  · intro before old hget
    rw [hmode, modeAt_of_file hget]
    rfl
  · rintro rfl hnone
    rw [hmode, if_neg Bool.false_ne_true]
    exact modeAt_of_none hnone
  · intro other hother
    exact fs.get?_set_ne hother _

theorem written_of_write {fs' : Files} {content : ByteArray} {makeExecutable : Bool}
    (h : fs.write path content makeExecutable = .ok fs') :
    ∃ spot mode, fs.Written path content makeExecutable fs' spot mode := by
  obtain ⟨spot, htarget, h⟩ := bind_eq_ok.mp h
  cases h
  obtain ⟨hleads, hspot⟩ := target_eq_ok.mp htarget
  exact ⟨spot, _, written_set hleads hspot rfl⟩

/-- Writing fails iff the path leads nowhere or to a directory. -/
theorem write_eq_error {content : ByteArray} {makeExecutable : Bool} :
    (∃ reason, fs.write path content makeExecutable = .error reason) ↔
      ∀ spot, fs.Leads path spot → fs.get? spot = some .directory := by
  constructor
  · rintro ⟨reason, h⟩ spot hleads
    by_contra hspot
    rw [write, target_eq_ok.mpr ⟨hleads, hspot⟩] at h
    exact nomatch h
  · intro h
    cases hwrite : fs.write path content makeExecutable with
    | error reason => exact ⟨reason, rfl⟩
    | ok fs' =>
      obtain ⟨spot, _, hwritten⟩ := written_of_write hwrite
      exact absurd (h spot hwritten.leads) hwritten.notDirectory

end

end ScriptTree.CommandLine.Files
