/-
  Setting the slots of a map at once and one by one.

  A map given to `var` or `merge!` stands for one `assoc!` for each of its entries.  Both ways make
  the same commands, in the same order and with the same faults.  They differ in how the commands
  are put on lines: the map is one statement, with a newline between each two commands, and the
  others are statements of their own, each of which gets a newline only if it does not end with one
  already.

  So the texts part where a command in front of the last ends with a newline, which is where the
  text of its value does: the map puts another newline behind it.  Every such value makes the text
  of the map longer by one character (`length_asLine_intercalate`), and without any the two texts
  are the same (`asLine_intercalate`), whatever stands around them.
-/
import ScriptTree.Proofs.Blocks
import ScriptTree.Proofs.Chains

namespace ScriptTree

namespace Text

/-! ## Lines with newlines between them, and lines that end themselves -/

/-- A text is made a line at its end. -/
theorem asLine_append (s : String) {t : String} (h : t ≠ "") : asLine (s ++ t) = s ++ asLine t := by
  have hne : s ++ t ≠ "" := by simp [h]
  rw [asLine, asLine, if_neg hne, if_neg h, endsLine_append_of_ne_empty s h]
  split
  · rfl
  · exact String.append_assoc

/-- The first of several texts with newlines between them stands on its line with the newline that
    is put there. -/
theorem asLine_intercalate_cons (t : String) {ts : List String} (hne : ts ≠ [])
    (h : ∀ u ∈ ts, u ≠ "") :
    asLine ("\n".intercalate (t :: ts)) = t ++ "\n" ++ asLine ("\n".intercalate ts) := by
  have hjoin : "\n".intercalate ts ≠ "" := mt (intercalate_eq_empty_iff "\n" h).mp hne
  rw [String.intercalate_cons_of_ne_nil hne, asLine_append _ hjoin]

theorem asLine_of_not_endsLine {s : String} (hne : s ≠ "") (h : endsLine s = false) :
    asLine s = s ++ "\n" := by
  rw [asLine, if_neg hne, if_neg (by simp [h])]

/-- If no text in front of the last ends with a newline, it does not matter whether newlines are
    put between the texts or behind each of them. -/
theorem asLine_intercalate {ts : List String} (hne : ∀ t ∈ ts, t ≠ "")
    (h : ∀ t ∈ ts.dropLast, endsLine t = false) :
    asLine ("\n".intercalate ts) = String.join (ts.map asLine) := by
  induction ts with
  | nil => rfl
  | cons t ts ih =>
    have ht : t ≠ "" := hne t (by simp)
    have hrest : ∀ u ∈ ts, u ≠ "" := fun u hu => hne u (List.mem_cons_of_mem t hu)
    by_cases hts : ts = []
    · simp [hts]
    · rw [List.dropLast_cons_of_ne_nil hts] at h
      rw [asLine_intercalate_cons t hts hrest,
        ih hrest fun u hu => h u (List.mem_cons_of_mem t hu), List.map_cons, String.join_cons,
        asLine_of_not_endsLine ht (h t (by simp))]

/-- Newlines between texts make a text longer than newlines behind each of them by one for each
    text in front of the last that ends with a newline already. -/
theorem length_asLine_intercalate {ts : List String} (hne : ∀ t ∈ ts, t ≠ "") :
    (asLine ("\n".intercalate ts)).length =
      (String.join (ts.map asLine)).length + ts.dropLast.countP endsLine := by
  induction ts with
  | nil => rfl
  | cons t ts ih =>
    have ht : t ≠ "" := hne t (by simp)
    have hrest : ∀ u ∈ ts, u ≠ "" := fun u hu => hne u (List.mem_cons_of_mem t hu)
    by_cases hts : ts = []
    · simp [hts]
    · have hrec := ih hrest
      rw [List.dropLast_cons_of_ne_nil hts, asLine_intercalate_cons t hts hrest, List.map_cons,
        String.join_cons]
      cases hends : endsLine t with
      | true =>
        rw [asLine_eq_self (.inr hends), List.countP_cons_of_pos hends]
        simp only [String.length_append, hrec]
        show t.length + 1 + _ = _
        omega
      | false =>
        rw [asLine_of_not_endsLine ht hends, List.countP_cons_of_neg (by simp [hends])]
        simp only [String.length_append, hrec]
        omega

theorem asLine_intercalate_eq_iff {ts : List String} (hne : ∀ t ∈ ts, t ≠ "") :
    asLine ("\n".intercalate ts) = String.join (ts.map asLine) ↔
      ts.dropLast.countP endsLine = 0 := by
  constructor
  · intro heq
    have hlength := length_asLine_intercalate hne
    rw [heq] at hlength
    omega
  · intro hcount
    refine asLine_intercalate hne fun t ht => ?_
    simpa using List.countP_eq_zero.mp hcount t ht

end Text

/-- One `assoc!` for each entry. -/
def Form.setEach (target : Form) (entries : List (Form × Form)) : List Form :=
  entries.map fun e => .call "assoc!" [target, e.1, e.2]

namespace Render

section

variable (cx : Setting) (target : Form) (entries : List (Form × Form))

/-! ## The commands of a map -/

/-- The commands that set the slots of a map. -/
def slotCommands : Except Fault (List String) :=
  entries.mapM fun e => setSlot (emit cx) target e.1 e.2

theorem emit_assign_map : emit cx (.call "var" [target, .map entries]) =
    (do return "\n".intercalate (← slotCommands cx target entries)) := by
  rw [emit_eq]
  rfl

theorem emit_merge_map : emit cx (.call "merge!" [target, .map entries]) =
    (do return "\n".intercalate (← slotCommands cx target entries)) := by
  rw [emit_eq]
  rfl

theorem emit_hashSet (key value : Form) : emit cx (.call "assoc!" [target, key, value]) =
    setSlot (emit cx) target key value := by
  rw [emit_eq]
  rfl

/-- One by one, each command is a line. -/
theorem statements_setEach : statements (emit cx) (Form.setEach target entries) =
    (do return String.join ((← slotCommands cx target entries).map Text.asLine)) := by
  have hall : (Form.setEach target entries).filter (fun f => !f.isSplice) =
      Form.setEach target entries := by
    refine List.filter_eq_self.mpr fun f hf => ?_
    obtain ⟨e, -, rfl⟩ := List.mem_map.mp hf
    rfl
  rw [statements_eq, hall, Form.setEach, List.mapM_map, slotCommands]
  simp only [Function.comp_def, emit_hashSet]

/-- At once, all commands are one statement. -/
theorem statements_map {f : Form} (hf : f.isSplice = false)
    (h : emit cx f = (do return "\n".intercalate (← slotCommands cx target entries))) :
    statements (emit cx) [f] =
      (do return Text.asLine ("\n".intercalate (← slotCommands cx target entries))) := by
  rw [statements_eq]
  simp [hf, h, String.join_cons]

/-! ## The ends of the commands -/

/-- Whether a form has a text that ends with a newline. -/
def endsItsLine (f : Form) : Bool :=
  (render cx [f]).toOption.any Text.endsLine

end

section

variable {cx : Setting} {target : Form}

theorem endsItsLine_eq {f : Form} {text : String} (h : emit cx f = .ok text) :
    endsItsLine cx f = Text.endsLine text := by
  rw [endsItsLine, render_single_eq_ok.mpr h]
  rfl

theorem endsItsLine_iff {f : Form} : endsItsLine cx f = true ↔
    ∃ text, render cx [f] = .ok text ∧ Text.endsLine text = true := by
  unfold endsItsLine
  cases render cx [f] with
  | error e =>
    show false = true ↔ _
    simp
  | ok text =>
    show Text.endsLine text = true ↔ _
    simp

/-- A command is not empty and ends as its value does. -/
theorem setSlot_ends {key value : Form} {command : String}
    (h : setSlot (emit cx) target key value = .ok command) :
    command ≠ "" ∧ Text.endsLine command = endsItsLine cx value := by
  obtain ⟨array, -, slot, -, text, htext, rfl⟩ : ∃ array, emit cx target = .ok array ∧
      ∃ slot, emit cx key = .ok slot ∧ ∃ text, emit cx value = .ok text ∧
        "hash_set " ++ Text.slotName array ++ " " ++ Text.slotName slot ++ " " ++ text =
          command := by
    simpa [setSlot] using h
  refine ⟨by simp, ?_⟩
  rw [endsItsLine_eq htext]
  by_cases hempty : text = ""
  · -- the command ends with the space in front of its value
    rw [hempty, String.append_empty, Text.endsLine_append_of_ne_empty _ (by decide)]
    decide
  · exact Text.endsLine_append_of_ne_empty _ hempty

theorem slotCommands_ends {entries : List (Form × Form)} {commands : List String}
    (h : slotCommands cx target entries = .ok commands) :
    (∀ command ∈ commands, command ≠ "") ∧
    commands.map Text.endsLine = entries.map fun e => endsItsLine cx e.2 := by
  unfold slotCommands at h
  induction entries generalizing commands with
  | nil =>
    obtain rfl : [] = commands := by simpa using h
    simp
  | cons e entries ih =>
    rw [List.mapM_cons] at h
    obtain ⟨command, hcommand, rest, hrest, rfl⟩ : ∃ command,
        setSlot (emit cx) target e.1 e.2 = .ok command ∧ ∃ rest,
          (entries.mapM fun e => setSlot (emit cx) target e.1 e.2) = .ok rest ∧
            command :: rest = commands := by
      simpa using h
    obtain ⟨hne, hends⟩ := setSlot_ends hcommand
    obtain ⟨hneRest, hendsRest⟩ := ih hrest
    refine ⟨?_, by simp [hends, hendsRest]⟩
    intro c hc
    rcases List.mem_cons.mp hc with rfl | hc
    · exact hne
    · exact hneRest c hc

/-- The values whose texts end with a newline are seen in the commands. -/
theorem countP_dropLast_commands {entries : List (Form × Form)} {commands : List String}
    (h : commands.map Text.endsLine = entries.map fun e => endsItsLine cx e.2) :
    commands.dropLast.countP Text.endsLine =
      entries.dropLast.countP fun e => endsItsLine cx e.2 := by
  have hlast : commands.dropLast.map Text.endsLine =
      entries.dropLast.map fun e => endsItsLine cx e.2 := by
    rw [List.map_dropLast, h, List.map_dropLast]
  have hcount := congrArg (List.countP id) hlast
  rwa [List.countP_map, List.countP_map] at hcount

end

/-! ## Among other statements -/

/-- Statements that are made of the commands of a map, among others. -/
theorem statements_around {cx : Setting} {target : Form} {entries : List (Form × Form)}
    {fs : List Form} {lay : List String → String}
    (h : statements (emit cx) fs = (do return lay (← slotCommands cx target entries)))
    (before after : List Form) : statements (emit cx) (before ++ fs ++ after) = (do
      let opening ← statements (emit cx) before
      let commands ← slotCommands cx target entries
      let closing ← statements (emit cx) after
      return opening ++ lay commands ++ closing) := by
  rw [statements_append, statements_append, h]
  simp

/-- A map given to `var` or `merge!` in a block makes a text wherever one `assoc!` for each of its
    entries does, the same for both.  It is longer than that of the `assoc!`s by a newline for each
    value in front of the last whose own text ends with one, and it is the same text iff there is
    none. -/
theorem render_map_eq_setEach (cx : Setting) (before after : List Form) (target : Form)
    (entries : List (Form × Form)) (text : String)
    (h : render cx [.call "do" (before ++ Form.setEach target entries ++ after)] = .ok text) :
    ∃ text',
      render cx [.call "do" (before ++ [.call "var" [target, .map entries]] ++ after)] =
        .ok text' ∧
      render cx [.call "do" (before ++ [.call "merge!" [target, .map entries]] ++ after)] =
        .ok text' ∧
      text'.length = text.length + (entries.dropLast.countP fun e => endsItsLine cx e.2) ∧
      (text' = text ↔ ∀ e ∈ entries.dropLast, ∀ value, render cx [e.2] = .ok value →
        Text.endsLine value = false) := by
  rw [render_single_eq_ok, emit_block,
    statements_around (statements_setEach cx target entries)] at h
  obtain ⟨opening, hopening, commands, hcommands, closing, hclosing, rfl⟩ : ∃ opening,
      statements (emit cx) before = .ok opening ∧ ∃ commands,
        slotCommands cx target entries = .ok commands ∧ ∃ closing,
          statements (emit cx) after = .ok closing ∧
            opening ++ String.join (commands.map Text.asLine) ++ closing = text := by
    simpa using h
  obtain ⟨hne, hends⟩ := slotCommands_ends hcommands
  have hmap : ∀ f : Form, f.isSplice = false →
      emit cx f = (do return "\n".intercalate (← slotCommands cx target entries)) →
      render cx [.call "do" (before ++ [f] ++ after)] =
        .ok (opening ++ Text.asLine ("\n".intercalate commands) ++ closing) := by
    intro f hf hemit
    rw [render_single_eq_ok, emit_block,
      statements_around (statements_map cx target entries hf hemit), hopening, hcommands, hclosing]
    rfl
  refine ⟨_, hmap _ rfl (emit_assign_map cx target entries),
    hmap _ rfl (emit_merge_map cx target entries), ?_, ?_⟩
  · simp only [String.length_append, Text.length_asLine_intercalate hne,
      countP_dropLast_commands hends]
    omega
  · rw [String.append_left_inj, String.append_right_inj, Text.asLine_intercalate_eq_iff hne,
      countP_dropLast_commands hends, List.countP_eq_zero]
    simp only [endsItsLine_iff, not_exists, not_and, Bool.not_eq_true]

/-- A function among the values: its text ends with a newline, and behind it the map has another. -/
theorem render_map_eq_setEach_function :
    let entries := [(Form.keyword "k", Form.call "defn" [.vector []]), (.keyword "l", .int 1)]
    let text := "p\nhash_set m k function () \x7b\n\x7d\nhash_set m l 1\n"
    render Setting.plain
        [.call "do" ([.symbol "p"] ++ Form.setEach (.symbol "m") entries ++ [])] = .ok text ∧
    ∃ text', render Setting.plain
        [.call "do" ([.symbol "p"] ++ [.call "var" [.symbol "m", .map entries]] ++ [])] =
          .ok text' ∧
      text'.length = text.length + 1 ∧ text' ≠ text := by
  intro entries text
  have htext : render Setting.plain
      [.call "do" ([.symbol "p"] ++ Form.setEach (.symbol "m") entries ++ [])] = .ok text :=
    eq_ok_of_toOption (by decide +kernel)
  obtain ⟨text', hvar, -, hlength, -⟩ :=
    render_map_eq_setEach Setting.plain [.symbol "p"] [] (.symbol "m") entries text htext
  have hcount : (entries.dropLast.countP fun e => endsItsLine Setting.plain e.2) = 1 := by
    decide +kernel
  rw [hcount] at hlength
  refine ⟨htext, text', hvar, hlength, fun heq => ?_⟩
  rw [heq] at hlength
  omega

end Render

end ScriptTree
