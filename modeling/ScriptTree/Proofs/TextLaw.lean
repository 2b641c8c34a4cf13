/-
  Laws of rendered text.

  Many statements about rendering have one shape: every text has some property, because the texts
  of atoms have it and every rule keeps it.  The walk through the rules is done once, for any
  property.  What a rule does to the texts of its parts is put together from three steps:
  it starts from a fixed text that is well bracketed, puts other texts into it, and trims.  So a
  property that holds of the fixed texts and survives the other two steps is a `TextLaw`.

  Two rules print more than that.  The clauses of a `case` close a bracket that they did not open,
  and the rules for slots print an underscore and spell names anew.  A property need not survive
  them if the forms at hand do not hold such lists, so a law comes with a class of forms: `FormLaw`
  says what the class has to grant.  Here are the ways of putting texts together, the atoms, and the
  sequences that most rules are made of; the walk itself is in `Proofs/RenderLaw.lean`.
-/
import ScriptTree.HashArray
import ScriptTree.Proofs.Atoms
import ScriptTree.Proofs.Brackets
import ScriptTree.Proofs.Success

namespace ScriptTree

/-- A property of texts that holds of every fixed text in the rules, and is kept when one text is
    put into another and when a text is trimmed. -/
structure TextLaw (P : String → Prop) : Prop where
  base : ∀ s, Text.WellBracketed s → '_' ∉ s.toList → P s
  insert : ∀ a b s, P (a ++ b) → P s → P (a ++ s ++ b)
  trim : ∀ s, P s → P (Text.trim s)

namespace TextLaw

variable {P : String → Prop} (law : TextLaw P)

include law

/-! ## Putting texts together -/

theorem literal (s : String) (h : decide (Text.WellBracketed s ∧ '_' ∉ s.toList) = true) : P s := by
  have hs := of_decide_eq_true h
  exact law.base s hs.1 hs.2

/-- A text without marks and underscores has the property. -/
theorem plain (s : String) (h : ∀ c ∈ s.toList, Text.isMark c = false ∧ c ≠ '_') : P s :=
  law.base s (Text.wellBracketed_of_unmarked fun c hc => (h c hc).1) fun hmem => (h '_' hmem).2 rfl

theorem empty : P "" := law.literal "" (by decide)

theorem append {s t : String} (hs : P s) (ht : P t) : P (s ++ t) := by
  have h := law.insert s "" t (by simpa using hs) ht
  simpa using h

/-- Two texts put into one. -/
theorem insert_two {a b c s t : String} (h : P (a ++ b ++ c)) (hs : P s) (ht : P t) :
    P (a ++ s ++ b ++ t ++ c) := by
  have hfirst : P (a ++ s ++ b ++ c) := by
    have h' := law.insert a (b ++ c) s (by rwa [← String.append_assoc]) hs
    rwa [← String.append_assoc] at h'
  exact law.insert (a ++ s ++ b) c t hfirst ht

theorem join {ts : List String} (h : ∀ t ∈ ts, P t) : P (String.join ts) := by
  induction ts with
  | nil => simpa using law.empty
  | cons t ts ih =>
    have hrest := ih fun u hu => h u (List.mem_cons_of_mem t hu)
    simpa using law.append (h t (by simp)) hrest

theorem intercalate {separator : String} (hsep : P separator) {ts : List String}
    (h : ∀ t ∈ ts, P t) : P (separator.intercalate ts) := by
  induction ts with
  | nil => simpa using law.empty
  | cons t ts ih =>
    have ht := h t (by simp)
    have hrest := ih fun u hu => h u (List.mem_cons_of_mem t hu)
    cases ts with
    | nil => simpa using ht
    | cons u us =>
      rw [String.intercalate_cons_cons]
      exact law.append (law.append ht hsep) hrest

theorem asLine {s : String} (h : P s) : P (Text.asLine s) := by
  unfold Text.asLine
  split
  · exact law.empty
  · split
    · exact h
    · exact law.append h (law.literal "\n" (by decide))

/-- A text of digits, points and minus signs has the property: none of these is a mark or an
    underscore. -/
theorem digits {s : String} (h : ∀ c ∈ s.toList, c.isDigit = true ∨ c = '.' ∨ c = '-') : P s := by
  have other : ['(', ')', '[', ']', '\x7b', '\x7d', '"', '\'', '_'].all
      (fun d => !(d.isDigit || d == '.' || d == '-')) = true := by decide
  apply law.plain
  intro c hc
  have hc' : c ∉ ['(', ')', '[', ']', '\x7b', '\x7d', '"', '\'', '_'] := by
    intro hmem
    have hother := List.all_eq_true.mp other c hmem
    rcases h c hc with h | h | h
    · simp [h] at hother
    · simp [h] at hother
    · simp [h] at hother
  constructor
  · cases hm : Text.isMark c with
    | false => rfl
    | true => exact absurd (List.mem_append_left ['_'] (List.contains_iff_mem.mp hm)) hc'
  · rintro rfl
    exact hc' (by decide)

end TextLaw

/-! ## Classes of forms -/

/-- A class of forms whose texts are to have a property.  The class is closed under taking parts
    and spreading, the texts of its atoms have the property, and it holds a `case` or a list that
    touches a slot only if the property survives what these print. -/
structure FormLaw (C : Form → Prop) (P : String → Prop) : Prop extends TextLaw P where
  text : ∀ f, C f → ∀ t ∈ f.texts, P t
  method : ∀ name method, C (.symbol name) → Render.method? name = some method → P method
  items : ∀ fs, C (.list fs) → ∀ f ∈ fs, C f
  elements : ∀ fs, C (.vector fs) → ∀ f ∈ fs, C f
  entries : ∀ es, C (.map es) → ∀ e ∈ es, C e.1 ∧ C e.2
  spread : ∀ args, C (.list (.symbol "apply" :: args)) → C (.list (Render.spread args))
  clause : ∀ args, C (.list (.symbol "case" :: args)) → P (")\n" ++ ";;\n")
  slot : ∀ fs, C (.list fs) → Form.touchesSlot fs = true →
    P "hash_set " ∧ P ("$(hash_echo " ++ " " ++ " -n)") ∧ ∀ s, P s → P (Text.slotName s)

namespace Render

variable {C : Form → Prop} {P : String → Prop} (law : FormLaw C P) {sub : Form → Rendering}

/-- The function renders the forms of the class to texts with the property. -/
def Keeps (C : Form → Prop) (P : String → Prop) (sub : Form → Rendering) : Prop :=
  ∀ f s, C f → sub f = .ok s → P s

/-- The name of a method is part of the symbol that names it. -/
theorem mem_of_mem_method {name method : String} (h : method? name = some method) {c : Char}
    (hc : c ∈ method.toList) : c ∈ name.toList := by
  unfold method? at h
  split at h
  · next d ds hname =>
    obtain rfl := Option.some.inj h
    rw [hname]
    exact List.mem_cons_of_mem _ (by simpa using hc)
  · exact absurd h (by simp)

theorem Keeps.mapM (hsub : Keeps C P sub) {fs : List Form} (hfs : ∀ f ∈ fs, C f)
    {ts : List String} (h : fs.mapM sub = .ok ts) : ∀ t ∈ ts, P t := by
  intro t ht
  obtain ⟨f, hf, hft⟩ := exists_of_mem_mapM h t ht
  exact hsub f t (hfs f hf) hft

include law

/-! ## Atoms -/

theorem natText_law (n : Nat) : P (toString n) := by
  apply law.digits
  intro c hc
  rw [Nat.toString_eq_ofList_toDigits, String.toList_ofList] at hc
  exact .inl (Nat.isDigit_of_mem_toDigits (by decide) (by decide) hc)

theorem intText_law (n : Int64) : P (Form.intText n) := by
  rw [Form.intText, Int.toString_eq_repr, Int.repr_eq_if]
  split
  · exact natText_law law _
  · exact law.append (law.literal "-" (by decide)) (natText_law law _)

omit law in
/-- Plain notation consists of digits and the point. -/
theorem mem_positional {d : Decimal} {c : Char} (h : c ∈ d.positional) :
    c.isDigit = true ∨ c = '.' := by
  have hdigits : c ∈ d.digits → c.isDigit = true :=
    fun hc => Nat.isDigit_of_mem_toDigits (by decide) (by decide) hc
  have hzeros : ∀ k, c ∈ List.replicate k '0' → c.isDigit = true := by
    intro k hc
    rw [List.eq_of_mem_replicate hc]
    decide
  unfold Decimal.positional at h
  split at h
  · next k _ =>
    rcases List.mem_append.mp h with h | h
    · rcases List.mem_append.mp h with h | h
      · exact .inl (hdigits h)
      · exact .inl (hzeros k h)
    · rcases List.mem_cons.mp h with rfl | h
      · exact .inr rfl
      · obtain rfl := List.mem_singleton.mp h
        exact .inl (by decide)
  · next k _ =>
    have hpadded : ∀ m, c ∈ List.replicate m '0' ++ d.digits → c.isDigit = true := by
      intro m hc
      rcases List.mem_append.mp hc with hc | hc
      · exact hzeros m hc
      · exact hdigits hc
    rcases List.mem_append.mp h with h | h
    · exact .inl (hpadded _ (List.mem_of_mem_take h))
    · rcases List.mem_cons.mp h with rfl | h
      · exact .inr rfl
      · exact .inl (hpadded _ (List.mem_of_mem_drop h))

theorem decimalText_law (x : Binary64) : P (decimalText x) := by
  apply law.digits
  intro c hc
  rw [decimalText, String.toList_ofList] at hc
  split at hc
  · rcases List.mem_cons.mp hc with rfl | hc
    · exact .inr (.inr rfl)
    · exact (mem_positional hc).imp_right .inl
  · exact (mem_positional hc).imp_right .inl

theorem ratio_law {numer denom : Int64} {s : String} (h : ratio numer denom = .ok s) : P s := by
  unfold ratio at h
  split at h
  · exact absurd h (misuse_ne_ok _ _)
  · obtain rfl := Except.ok.inj h
    exact decimalText_law law _

/-! ## Sequences -/

section

variable (hsub : Keeps C P sub) {fs : List Form} (hfs : ∀ f ∈ fs, C f)

include hsub hfs

theorem statements_law {s : String} (h : statements sub fs = .ok s) : P s := by
  rw [statements_eq] at h
  obtain ⟨ts, hts, rfl⟩ : ∃ ts, (fs.filter fun f => !f.isSplice).mapM sub = .ok ts ∧
      String.join (ts.map Text.asLine) = s := by simpa using h
  have hall := hsub.mapM (fun f hf => hfs f ((List.mem_filter.mp hf).1)) hts
  apply law.join
  intro t ht
  obtain ⟨u, hu, rfl⟩ := List.mem_map.mp ht
  exact law.asLine (hall u hu)

omit law in
theorem parts_law {ts : List String} (h : parts sub fs = .ok ts) : ∀ t ∈ ts, P t := by
  rw [parts_eq] at h
  obtain ⟨us, hus, rfl⟩ : ∃ us, (fs.filter fun f => !f.isSplice).mapM sub = .ok us ∧
      us.filter (fun s => !Text.isBlank s) = ts := by simpa using h
  intro t ht
  exact hsub.mapM (fun f hf => hfs f ((List.mem_filter.mp hf).1)) hus t (List.mem_filter.mp ht).1

theorem joined_law {separator : String} (hsep : P separator) {s : String}
    (h : joined sub separator fs = .ok s) : P s := by
  obtain ⟨ts, hts, rfl⟩ : ∃ ts, parts sub fs = .ok ts ∧ separator.intercalate ts = s := by
    simpa [joined] using h
  exact law.intercalate hsep (parts_law hsub hfs hts)

theorem words_law {s : String} (h : words sub fs = .ok s) : P s :=
  joined_law law hsub hfs (law.literal " " (by decide)) h

theorem arguments_law {s : String} (h : arguments sub fs = .ok s) : P s := by
  obtain ⟨ts, hts, rfl⟩ : ∃ ts, fs.mapM sub = .ok ts ∧ "(" ++ ", ".intercalate ts ++ ")" = s := by
    simpa [arguments] using h
  have hlist := law.intercalate (law.literal ", " (by decide)) (hsub.mapM hfs hts)
  exact law.insert "(" ")" _ (law.literal "()" (by decide)) hlist

end

theorem initialiser_law (hsub : Keeps C P sub) {es : List (Form × Form)}
    (hes : ∀ e ∈ es, C e.1 ∧ C e.2) {s : String} (h : initialiser sub es = .ok s) : P s := by
  obtain ⟨ts, hts, rfl⟩ : ∃ ts, (es.mapM fun e => do
      let key ← sub e.1
      let value ← sub e.2
      return "[" ++ key ++ "]=" ++ value) = .ok ts ∧ "(" ++ " ".intercalate ts ++ ")" = s := by
    simpa [initialiser] using h
  have hall : ∀ t ∈ ts, P t := by
    intro t ht
    obtain ⟨e, he, het⟩ := exists_of_mem_mapM hts t ht
    obtain ⟨key, hkey, value, hvalue, rfl⟩ : ∃ key, sub e.1 = .ok key ∧
        ∃ value, sub e.2 = .ok value ∧ "[" ++ key ++ "]=" ++ value = t := by simpa using het
    have hslot := law.insert "[" "]=" key (law.literal "[]=" (by decide))
      (hsub _ _ (hes e he).1 hkey)
    exact law.append hslot (hsub _ _ (hes e he).2 hvalue)
  have hlist := law.intercalate (law.literal " " (by decide)) hall
  exact law.insert "(" ")" _ (law.literal "()" (by decide)) hlist

end Render

end ScriptTree
