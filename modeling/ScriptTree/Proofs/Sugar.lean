/-
  `when` as sugar.

  A `when` is rendered to the text of an `if` with one branch, a block of the same statements, as
  long as these do not come to nothing.  The two get there in different ways: a `when` renders its
  statements first and an `if` its condition, so their faults may differ, and the newlines around the
  statements are written by the one and by the branch of the other.

  1. `Form.desugar` writes every `when` with a condition as an `if`, everywhere but inside the keys of
     maps, and leaves none over (`whenBodies_desugar`).
  2. A `when` and its `if` render alike if their parts do (`emit_when_same`).  This is the step.
  3. What stands around them cannot tell them apart: neither is a test, and a branch lays out both on
     lines of their own, the one because its text has a newline in it and the other by its head
     (`Desugared.onLines`).  So `Desugared` is a relation as `Parallel` asks for, and the induction
     over the tree is the one made there.
-/
import ScriptTree.Proofs.Blocks
import ScriptTree.Proofs.Conditions
import ScriptTree.Proofs.Replacement

namespace ScriptTree

namespace Form

/-! ## Writing `when` as `if` -/

mutual

/-- The form with every `when` that has a condition written as an `if` with a block, except inside
    the keys of maps. -/
def desugar : Form → Form
  | .list (.symbol "when" :: test :: body) =>
    .call "if" [desugar test, .call "do" (desugarItems body)]
  | .list items => .list (desugarItems items)
  | .vector items => .vector (desugarItems items)
  | .map entries => .map (desugarEntries entries)
  | atom => atom

/-- Several forms so written. -/
def desugarItems : List Form → List Form
  | [] => []
  | f :: fs => desugar f :: desugarItems fs

/-- Entries of a map with their values so written. -/
def desugarEntries : List (Form × Form) → List (Form × Form)
  | [] => []
  | (k, v) :: es => (k, desugar v) :: desugarEntries es

end

/-- The statements of a list that is a `when` with a condition. -/
def whenBody : List Form → List (List Form)
  | .symbol "when" :: _ :: body => [body]
  | _ => []

mutual

/-- The statements of every `when` with a condition in a form, except inside the keys of maps. -/
def whenBodies : Form → List (List Form)
  | .list items => whenBody items ++ whenBodiesOfItems items
  | .vector items => whenBodiesOfItems items
  | .map entries => whenBodiesOfEntries entries
  | _ => []

/-- Those in several forms. -/
def whenBodiesOfItems : List Form → List (List Form)
  | [] => []
  | f :: fs => whenBodies f ++ whenBodiesOfItems fs

/-- Those in the values of a map. -/
def whenBodiesOfEntries : List (Form × Form) → List (List Form)
  | [] => []
  | (_, v) :: es => whenBodies v ++ whenBodiesOfEntries es

end

theorem whenBodies_subset_of_mem {f : Form} {fs : List Form} (h : f ∈ fs) :
    f.whenBodies ⊆ whenBodiesOfItems fs := by
  induction fs with
  | nil => simp at h
  | cons g gs ih =>
    rw [whenBodiesOfItems]
    rcases List.mem_cons.mp h with rfl | h
    · exact List.subset_append_left _ _
    · exact List.subset_append_of_subset_right _ (ih h)

theorem whenBodies_subset_of_mem_entries {e : Form × Form} {es : List (Form × Form)} (h : e ∈ es) :
    e.2.whenBodies ⊆ whenBodiesOfEntries es := by
  induction es with
  | nil => simp at h
  | cons d ds ih =>
    rw [whenBodiesOfEntries]
    rcases List.mem_cons.mp h with rfl | h
    · exact List.subset_append_left _ _
    · exact List.subset_append_of_subset_right _ (ih h)

theorem desugarItems_eq (fs : List Form) : desugarItems fs = fs.map desugar := by
  induction fs with
  | nil => rfl
  | cons f fs ih => rw [desugarItems, ih, List.map_cons]

theorem desugarEntries_eq (es : List (Form × Form)) :
    desugarEntries es = es.map fun e => (e.1, e.2.desugar) := by
  induction es with
  | nil => rfl
  | cons e es ih => rw [desugarEntries, ih, List.map_cons]

/-- A list is a `when` with a condition, or only its items are written anew. -/
theorem desugar_list (items : List Form) :
    (∃ test body, items = .symbol "when" :: test :: body ∧
      desugar (.list items) = .call "if" [desugar test, .call "do" (desugarItems body)]) ∨
    desugar (.list items) = .list (desugarItems items) ∧
      ∀ test body, items ≠ .symbol "when" :: test :: body := by
  by_cases hwhen : ∃ test body, items = .symbol "when" :: test :: body
  · obtain ⟨test, body, rfl⟩ := hwhen
    exact .inl ⟨test, body, rfl, by rw [desugar]⟩
  · have hother : ∀ test body, items ≠ .symbol "when" :: test :: body :=
      fun test body h => hwhen ⟨test, body, h⟩
    refine .inr ⟨?_, hother⟩
    rw [desugar]
    exact hother

theorem symbol?_desugar (f : Form) : f.desugar.symbol? = f.symbol? := by
  cases f with
  | list items =>
    rcases desugar_list items with ⟨test, body, rfl, h⟩ | ⟨h, -⟩
    · rw [h]; rfl
    · rw [h]; rfl
  | _ => rfl

/-! ## No `when` is left over -/

/-- A list that is no `when` with a condition does not become one. -/
theorem whenBody_desugarItems {items : List Form}
    (h : ∀ test body, items ≠ .symbol "when" :: test :: body) :
    whenBody (desugarItems items) = [] := by
  rw [whenBody]
  intro test body heq
  match items, heq with
  | [_], heq => simp [desugarItems] at heq
  | f :: g :: fs, heq =>
    have hhead : f.symbol? = some "when" := by
      rw [← symbol?_desugar, (List.cons.inj heq).1]
      rfl
    cases f with
    | symbol name =>
      obtain rfl := Option.some.inj hhead
      exact h g fs rfl
    | _ => exact nomatch hhead

mutual

theorem whenBodies_desugar : ∀ f : Form, f.desugar.whenBodies = []
  | .list items => by
    rcases desugar_list items with ⟨test, body, rfl, h⟩ | ⟨h, hother⟩
    · rw [h]
      have htest := whenBodies_desugar test
      have hitems := whenBodies_desugarItems body
      simp [call, whenBodies, whenBodiesOfItems, whenBody, htest, hitems]
    · rw [h, whenBodies, whenBody_desugarItems hother, whenBodies_desugarItems items, List.append_nil]
  | .vector items => by rw [desugar, whenBodies, whenBodies_desugarItems items]
  | .map entries => by rw [desugar, whenBodies, whenBodies_desugarEntries entries]
  | .nil | .int _ | .ratio _ _ | .str _ | .keyword _ | .symbol _ | .splice => rfl

theorem whenBodies_desugarItems : ∀ fs : List Form, whenBodiesOfItems (desugarItems fs) = []
  | [] => rfl
  | f :: fs => by
    rw [desugarItems, whenBodiesOfItems, whenBodies_desugar f, whenBodies_desugarItems fs,
      List.append_nil]

theorem whenBodies_desugarEntries :
    ∀ es : List (Form × Form), whenBodiesOfEntries (desugarEntries es) = []
  | [] => rfl
  | (k, v) :: es => by
    rw [desugarEntries, whenBodiesOfEntries, whenBodies_desugar v, whenBodies_desugarEntries es,
      List.append_nil]

end

end Form

namespace Render

/-! ## A `when` and its `if` -/

/-- The text of a `when` has more than one line. -/
theorem newline_mem_when {cx : Setting} {test : Form} {body : List Form} {text : String}
    (h : emit cx (.call "when" (test :: body)) = .ok text) : '\n' ∈ text.toList := by
  rw [emit_whenTrue, whenTrue] at h
  obtain ⟨body, -, test, -, rfl⟩ : ∃ body, _ ∧ ∃ test, _ ∧
      "if " ++ test ++ "; then\n" ++ bodyOr body ++ "\nfi" = text := by simpa using h
  simp

/-- The statements have no text, or one that is not blank. -/
def Shown (cx : Setting) (body : List Form) : Prop :=
  ∀ text, emit cx (.call "do" body) = .ok text → Text.isBlank text = false

/-- If their parts render alike and the statements do not come to nothing, a `when` and the `if` with
    a block render alike. -/
theorem emit_when_same {R : Form → Form → Prop} {cx : Setting} (like : Likeness R fun _ _ => True)
    (texts : ∀ {f g}, R f g → SameUpTo (fun _ _ => True) (emit cx f) (emit cx g))
    {test test' : Form} {body body' : List Form} (htest : R test test')
    (hbody : List.Forall₂ R body body') (hshown : Shown cx body) :
    SameUpTo (fun _ _ => True) (emit cx (.call "when" (test :: body)))
      (emit cx (.call "if" [test', .call "do" body'])) := by
  have htests := condition_same like texts htest
  have hbodies := statements_same like texts hbody
  have hbranch : branch (emit cx) (.call "do" body') =
      (do return "\n" ++ Text.trim (← statements (emit cx) body') ++ "\n") := by
    rw [branch, emit_block]
    rfl
  rw [Shown, emit_block] at hshown
  rw [emit_whenTrue, emit_ifElse, whenTrue, conditional, hbranch]
  generalize statements (emit cx) body = x at hbodies hshown ⊢
  generalize statements (emit cx) body' = y at hbodies ⊢
  generalize condition (emit cx) test = u at htests ⊢
  generalize condition (emit cx) test' = v at htests ⊢
  cases htests with
  | error _ =>
    -- the condition has a fault on both sides, and on the left the statements may have another
    cases hbodies with
    | error _ => exact .error trivial
    | ok text => exact .error trivial
  | ok condition =>
    cases hbodies with
    | error _ => exact .error trivial
    | ok text =>
      have htext : bodyOr text = Text.trim text := by
        have hne : Text.trim text ≠ "" := fun hempty => by
          simp [Text.trim_eq_empty_iff.mp hempty] at hshown
        rw [bodyOr, if_neg hne]
      have hsame : "if " ++ condition ++ "; then\n" ++ bodyOr text ++ "\nfi" =
          "if " ++ condition ++ "; then" ++ ("\n" ++ Text.trim text ++ "\n") ++ "fi" := by
        have hthen : "; then\n" = "; then" ++ "\n" := rfl
        have hend : "\nfi" = "\n" ++ "fi" := rfl
        rw [htext, hthen, hend]
        simp only [String.append_assoc]
      show SameUpTo _ (.ok _) (.ok _)
      rw [hsame]
      exact .ok _

/-! ## Around them -/

/-- The statements of no `when` in a form come to nothing. -/
def BodiesShow (cx : Setting) (f : Form) : Prop :=
  ∀ body ∈ f.whenBodies, Shown cx body

namespace BodiesShow

variable {cx : Setting}

theorem items {fs : List Form} (h : ∀ body ∈ Form.whenBodiesOfItems fs, Shown cx body) :
    ∀ f ∈ fs, BodiesShow cx f :=
  fun _ hf body hbody => h body (Form.whenBodies_subset_of_mem hf hbody)

theorem values {es : List (Form × Form)}
    (h : ∀ body ∈ Form.whenBodiesOfEntries es, Shown cx body) : ∀ e ∈ es, BodiesShow cx e.2 :=
  fun _ he body hbody => h body (Form.whenBodies_subset_of_mem_entries he hbody)

end BodiesShow

/-- A form without `apply` beside itself or, if the statements of no `when` in it come to nothing,
    beside the form with `if` in place of `when`. -/
def Desugared (cx : Setting) (f g : Form) : Prop :=
  "apply" ∉ f.symbols ∧ (f = g ∨ BodiesShow cx f ∧ f.desugar = g)

namespace Desugared

variable {cx : Setting}

theorem same {f : Form} (h : "apply" ∉ f.symbols) : Desugared cx f f :=
  ⟨h, .inl rfl⟩

theorem forall₂ {fs : List Form} (happly : ∀ f ∈ fs, "apply" ∉ f.symbols)
    (hshow : ∀ f ∈ fs, BodiesShow cx f) :
    List.Forall₂ (Desugared cx) fs (Form.desugarItems fs) := by
  rw [Form.desugarItems_eq, List.forall₂_map_right_iff]
  exact List.forall₂_same.mpr fun f hf => ⟨happly f hf, .inr ⟨hshow f hf, rfl⟩⟩

theorem forall₂_entries {es : List (Form × Form)}
    (happly : ∀ e ∈ es, "apply" ∉ e.1.symbols ∧ "apply" ∉ e.2.symbols)
    (hshow : ∀ e ∈ es, BodiesShow cx e.2) :
    List.Forall₂ (fun e d => Desugared cx e.1 d.1 ∧ Desugared cx e.2 d.2) es
      (Form.desugarEntries es) := by
  rw [Form.desugarEntries_eq, List.forall₂_map_right_iff]
  exact List.forall₂_same.mpr fun e he =>
    ⟨same (happly e he).1, (happly e he).2, .inr ⟨hshow e he, rfl⟩⟩

/-- Related lists have related items, or they are a `when` and its `if`. -/
theorem items {fs gs : List Form} (h : Desugared cx (.list fs) (.list gs)) :
    List.Forall₂ (Desugared cx) fs gs ∨
    ∃ test test' body body', fs = .symbol "when" :: test :: body ∧
      gs = [.symbol "if", test', .call "do" body'] ∧ Desugared cx test test' ∧
      List.Forall₂ (Desugared cx) body body' ∧ Shown cx body := by
  obtain ⟨happly, heq | ⟨hshow, heq⟩⟩ := h
  · obtain rfl := Form.list.inj heq
    exact .inl (List.forall₂_same.mpr fun f hf =>
      same (Form.hereditary_applyless.items happly f hf))
  · rw [BodiesShow, Form.whenBodies] at hshow
    have hitems : ∀ f ∈ fs, BodiesShow cx f :=
      .items fun body hbody => hshow body (List.mem_append_right _ hbody)
    have happlyItems := Form.hereditary_applyless.items happly
    rcases Form.desugar_list fs with ⟨test, body, rfl, h⟩ | ⟨h, -⟩
    · rw [h] at heq
      obtain rfl := Form.list.inj heq
      refine .inr ⟨test, _, body, _, rfl, rfl, ⟨happlyItems test (by simp), .inr ⟨?_, rfl⟩⟩, ?_, ?_⟩
      · exact hitems test (by simp)
      · exact forall₂ (fun f hf => happlyItems f (by simp [hf])) fun f hf => hitems f (by simp [hf])
      · exact hshow body (by simp [Form.whenBody])
    · rw [h] at heq
      obtain rfl := Form.list.inj heq
      exact .inl (forall₂ happlyItems hitems)

/-- A list is related to lists only. -/
theorem exists_list {fs : List Form} {g : Form} (h : Desugared cx (.list fs) g) :
    ∃ gs, g = .list gs := by
  obtain ⟨-, rfl | ⟨-, rfl⟩⟩ := h
  · exact ⟨fs, rfl⟩
  · rcases Form.desugar_list fs with ⟨test, body, rfl, h⟩ | ⟨h, -⟩
    · exact ⟨_, h⟩
    · exact ⟨_, h⟩

theorem resembles {f g : Form} (h : Desugared cx f g) : Form.Resembles (Desugared cx) f g := by
  cases f with
  | list fs =>
    obtain ⟨gs, rfl⟩ := h.exists_list
    rcases h.items with hitems | ⟨test, test', body, body', rfl, rfl, -⟩
    · exact .list hitems
    · have htest : isTest "when" = false ∧ isTest "if" = false := by decide +kernel
      exact .plain htest.1 htest.2
  | vector fs =>
    obtain ⟨happly, rfl | ⟨hshow, rfl⟩⟩ := h
    · exact Form.hereditary_applyless.resembles_self (fun _ => same) happly
    · exact .vector (forall₂ (Form.hereditary_applyless.elements happly) (.items hshow))
  | map es =>
    obtain ⟨happly, rfl | ⟨hshow, rfl⟩⟩ := h
    · exact Form.hereditary_applyless.resembles_self (fun _ => same) happly
    · exact .map (forall₂_entries (Form.hereditary_applyless.entries happly) (.values hshow))
  | _ =>
    obtain ⟨happly, rfl | ⟨-, rfl⟩⟩ := h
    all_goals exact Form.hereditary_applyless.resembles_self (fun _ => same) happly

theorem likeness : Likeness (Desugared cx) fun _ _ => True where
  resembles := resembles
  misuse _ := trivial
  notMap _ := trivial
  badName _ _ := trivial

/-- A `when` is laid out on lines of its own by its text, and an `if` by its head. -/
theorem onLines {f g : Form} {text : String} (h : Desugared cx f g) (htext : emit cx f = .ok text) :
    f.onLines text = g.onLines text := by
  cases f with
  | list fs =>
    obtain ⟨gs, rfl⟩ := h.exists_list
    rcases h.items with hitems | ⟨test, test', body, body', rfl, rfl, -⟩
    · unfold Form.onLines Form.isHeadedBy
      rw [headSymbol?_same likeness hitems]
    · have hnewline : text.toList.contains '\n' = true :=
        List.contains_iff_mem.mpr (newline_mem_when htext)
      unfold Form.onLines
      rw [hnewline, Bool.or_true, Bool.or_true]
  | _ => obtain ⟨-, rfl | ⟨-, rfl⟩⟩ := h <;> rfl

end Desugared

/-- A `when` may be written as an `if` in any tree without `apply`. -/
theorem desugared_parallel (origin : Origin) :
    Parallel ⟨Extension.none, origin⟩ ⟨Extension.none, origin⟩ (Desugared ⟨Extension.none, origin⟩)
      (fun _ _ => True) where
  toLikeness := Desugared.likeness
  lines h htext := h.onLines htext
  lists h := by
    refine h.items.imp_right ?_
    rintro ⟨test, test', body, body', rfl, rfl, htest, hbody, hshown⟩ ih
    have hsize : test.size + Form.sizeOfItems body <
        (Form.list (.symbol "when" :: test :: body)).size := by
      simp only [Form.size, Form.sizeOfItems]
      omega
    exact emit_when_same (likeness_below Desugared.likeness _) ih ⟨by omega, htest⟩
      (items_below hbody (by omega)) hshown
  call _ := .ok ""
  spread h := absurd (Form.head_mem_symbols "apply" _) h.1

/-! ## Sugar -/

/-- **`when` is sugar** for an `if` with a block.  In a tree without `apply`, let no statements of a
    `when` outside of the keys of maps come to nothing.  Then the tree with all these `when` written
    as `if` has none of them left, and both trees render to the same text, or both fail. -/
theorem render_desugar (origin : Origin) (t : Form) (happly : "apply" ∉ t.symbols)
    (hbodies : ∀ body ∈ t.whenBodies, ∀ text,
      render ⟨Extension.none, origin⟩ [.call "do" body] = .ok text → Text.isBlank text = false) :
    t.desugar.whenBodies = [] ∧
    SameUpTo (fun _ _ => True) (render ⟨Extension.none, origin⟩ [t])
      (render ⟨Extension.none, origin⟩ [t.desugar]) := by
  have hshow : BodiesShow ⟨Extension.none, origin⟩ t := by
    intro body hbody text htext
    refine hbodies body hbody text ?_
    rwa [render, mapError_eq_ok]
  have hsugar : Desugared ⟨Extension.none, origin⟩ t t.desugar := ⟨happly, .inr ⟨hshow, rfl⟩⟩
  exact ⟨Form.whenBodies_desugar t,
    render_same (desugared_parallel origin) (fun _ _ _ => trivial) (.cons hsugar .nil)⟩

/-- A `when` in another one, which is a branch; and one in the key of a map, which has no statements
    and stays. -/
theorem render_desugar_nested :
    let other := Form.map [(.call "when" [.symbol "k"], .symbol "v")]
    let inner := Form.call "when" [.symbol "y", .call "c" []]
    let tree := Form.call "if" [.symbol "a", .call "when" [.symbol "x", .call "b" [], inner], other]
    let written := Form.call "if" [.symbol "a", .call "if" [.symbol "x", .call "do" [.call "b" [],
      .call "if" [.symbol "y", .call "do" [.call "c" []]]]], other]
    "apply" ∉ tree.symbols ∧ tree.desugar = written ∧
    render Setting.plain [tree] = .ok ("if a; then\nif x; then\nb\nif y; then\nc\nfi\nfi\n" ++
      "else\n([if k; then\n:\nfi]=v)\nfi") ∧
    SameUpTo (fun _ _ => True) (render Setting.plain [tree]) (render Setting.plain [written]) := by
  intro other inner tree written
  have hinner : render Setting.plain [.call "do" [.call "c" []]] = .ok "c\n" :=
    eq_ok_of_toOption (by decide +kernel)
  have houter : render Setting.plain [.call "do" [.call "b" [], inner]] =
      .ok "b\nif y; then\nc\nfi\n" := eq_ok_of_toOption (by decide +kernel)
  have happly : "apply" ∉ tree.symbols := by decide +kernel
  have hbodies : ∀ body ∈ tree.whenBodies, ∀ text,
      render Setting.plain [.call "do" body] = .ok text → Text.isBlank text = false := by
    have hall : tree.whenBodies = [[.call "b" [], inner], [.call "c" []]] := rfl
    intro body hbody text htext
    rw [hall] at hbody
    rcases List.mem_cons.mp hbody with rfl | hbody
    · obtain rfl := Except.ok.inj (houter.symm.trans htext)
      decide +kernel
    · obtain rfl := List.mem_singleton.mp hbody
      obtain rfl := Except.ok.inj (hinner.symm.trans htext)
      decide +kernel
  exact ⟨happly, rfl, eq_ok_of_toOption (by decide +kernel),
    (render_desugar Origin.unknown tree happly hbodies).2⟩

end Render

end ScriptTree
