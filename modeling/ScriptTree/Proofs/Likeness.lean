/-
  What a rule can see of a form.

  Several statements about rendering compare two runs: of one tree in two settings, of two trees
  that differ in one place, of one run with itself, where only the faults are of interest, or of one
  tree rendered in more levels and in fewer.  They all have one proof.  Two forms that cannot be
  told apart by a rule are rendered alike by it, as long as their parts are.

  What a rule can see of a form is `Resembles`: which kind of form it is, its parts if it is a
  vector or a map, and of a list the head, if that is one of those a condition looks for.  A branch
  also looks for heads, and for newlines; what it makes of both is `Form.onLines`.  Two outcomes are
  compared by `SameUpTo`: they are the same text, or faults in a relation that is left open.
  `Likeness` is what a relation between forms has to grant.  Every rule gets one lemma, and
  `construct_same` and `layout_list_same` put them together.
-/
import Mathlib.Data.List.Forall2
import ScriptTree.Render.Layout

namespace ScriptTree

/-! ## Outcomes -/

/-- The same result, or two faults in a relation. -/
inductive SameUpTo (E : Fault → Fault → Prop) {α : Type} :
    Except Fault α → Except Fault α → Prop
  | ok (a : α) : SameUpTo E (.ok a) (.ok a)
  | error {e d : Fault} (h : E e d) : SameUpTo E (.error e) (.error d)

namespace SameUpTo

variable {E : Fault → Fault → Prop} {α β : Type}

theorem bind {x y : Except Fault α} {f g : α → Except Fault β} (h : SameUpTo E x y)
    (hnext : ∀ a, SameUpTo E (f a) (g a)) : SameUpTo E (x >>= f) (y >>= g) := by
  cases h with
  | ok a => exact hnext a
  | error h => exact .error h

theorem mapError {D : Fault → Fault → Prop} {k l : Fault → Fault} {x y : Except Fault α}
    (h : SameUpTo E x y) (hfaults : ∀ e d, E e d → D (k e) (l d)) :
    SameUpTo D (x.mapError k) (y.mapError l) := by
  cases h with
  | ok a => exact .ok a
  | error h => exact .error (hfaults _ _ h)

/-- The same result or the same fault. -/
theorem eq {x y : Except Fault α} (h : SameUpTo Eq x y) : x = y := by
  cases h with
  | ok a => rfl
  | error h => rw [h]

theorem of_eq {x y : Except Fault α} (h : x = y) : SameUpTo Eq x y := by
  subst h
  cases x with
  | ok a => exact .ok a
  | error e => exact .error rfl

/-- Two traversals of lists whose elements are related one by one. -/
theorem mapM {γ : Type} {S : α → β → Prop} {f : α → Except Fault γ} {g : β → Except Fault γ}
    {l : List α} {m : List β} (h : List.Forall₂ S l m)
    (hnext : ∀ a b, S a b → SameUpTo E (f a) (g b)) : SameUpTo E (l.mapM f) (m.mapM g) := by
  induction h with
  | nil => exact .ok []
  | cons hab _ ih =>
    rw [List.mapM_cons, List.mapM_cons]
    exact (hnext _ _ hab).bind fun c => ih.bind fun cs => .ok (c :: cs)

end SameUpTo

/-! ## What a rule can see -/

namespace Form

/-- Whether a branch with this text is laid out on lines of its own. -/
def onLines (f : Form) (body : String) : Bool :=
  f.isHeadedBy "do" || f.isHeadedBy "if" || f.isHeadedBy "if-not" || body.toList.contains '\n'

/-- The same atom, two forms of one kind whose parts are related, or two lists that are no tests. -/
inductive Resembles (R : Form → Form → Prop) : Form → Form → Prop
  | nil : Resembles R .nil .nil
  | int (n : Int64) : Resembles R (.int n) (.int n)
  | ratio (n d : Int64) : Resembles R (.ratio n d) (.ratio n d)
  | str (text : String) : Resembles R (.str text) (.str text)
  | keyword (name : String) : Resembles R (.keyword name) (.keyword name)
  | symbol (name : String) : Resembles R (.symbol name) (.symbol name)
  | splice : Resembles R .splice .splice
  | list {fs gs : List Form} (h : List.Forall₂ R fs gs) : Resembles R (.list fs) (.list gs)
  | vector {fs gs : List Form} (h : List.Forall₂ R fs gs) : Resembles R (.vector fs) (.vector gs)
  | map {es ds : List (Form × Form)} (h : List.Forall₂ (fun e d => R e.1 d.1 ∧ R e.2 d.2) es ds) :
      Resembles R (.map es) (.map ds)
  | plain {fs gs : List Form} (hf : (Form.list fs).headSymbol?.any isTest = false)
      (hg : (Form.list gs).headSymbol?.any isTest = false) : Resembles R (.list fs) (.list gs)

namespace Resembles

variable {R : Form → Form → Prop} {f g : Form}

theorem isSplice (h : Resembles R f g) : f.isSplice = g.isSplice := by
  cases h <;> rfl

/-- Only a symbol resembles a symbol, and only itself. -/
theorem symbol? (h : Resembles R f g) : f.symbol? = g.symbol? := by
  cases h <;> rfl

end Resembles

/-- A class of forms that holds the parts of its members. -/
structure Hereditary (C : Form → Prop) : Prop where
  items : ∀ {fs}, C (.list fs) → ∀ f ∈ fs, C f
  elements : ∀ {fs}, C (.vector fs) → ∀ f ∈ fs, C f
  entries : ∀ {es}, C (.map es) → ∀ e ∈ es, C e.1 ∧ C e.2

/-- A form of the class resembles itself, if its members are related to themselves. -/
theorem Hereditary.resembles_self {C : Form → Prop} (hC : Hereditary C)
    {R : Form → Form → Prop} (hR : ∀ f, C f → R f f) {f : Form} (hf : C f) :
    Resembles R f f := by
  cases f with
  | nil => exact .nil
  | int n => exact .int n
  | ratio n d => exact .ratio n d
  | str text => exact .str text
  | keyword name => exact .keyword name
  | symbol name => exact .symbol name
  | splice => exact .splice
  | list fs => exact .list (List.forall₂_same.mpr fun f hfs => hR f (hC.items hf f hfs))
  | vector fs => exact .vector (List.forall₂_same.mpr fun f hfs => hR f (hC.elements hf f hfs))
  | map es =>
    refine .map (List.forall₂_same.mpr fun e he => ?_)
    exact ⟨hR _ (hC.entries hf e he).1, hR _ (hC.entries hf e he).2⟩

/-- A form of a class beside itself. -/
def Itself (C : Form → Prop) (f g : Form) : Prop :=
  f = g ∧ C f

namespace Itself

variable {C : Form → Prop} (hC : Hereditary C)

theorem forall₂ {fs : List Form} (h : ∀ f ∈ fs, C f) : List.Forall₂ (Itself C) fs fs :=
  List.forall₂_same.mpr fun f hf => ⟨rfl, h f hf⟩

include hC

theorem resembles {f g : Form} (h : Itself C f g) : Resembles (Itself C) f g := by
  obtain ⟨rfl, hf⟩ := h
  exact hC.resembles_self (fun _ hg => ⟨rfl, hg⟩) hf

theorem items {fs gs : List Form} (h : Itself C (.list fs) (.list gs)) :
    List.Forall₂ (Itself C) fs gs := by
  obtain ⟨heq, hfs⟩ := h
  obtain rfl := Form.list.inj heq
  exact forall₂ (hC.items hfs)

end Itself

theorem headSymbol?_cons (f : Form) (fs : List Form) :
    (Form.list (f :: fs)).headSymbol? = f.symbol? := by
  cases f <;> rfl

end Form

/-- What a relation between forms and one between faults have to grant: related forms resemble
    each other, and the faults that the rules report themselves are related. -/
structure Likeness (R : Form → Form → Prop) (E : Fault → Fault → Prop) : Prop where
  resembles : ∀ {f g}, R f g → Form.Resembles R f g
  misuse : ∀ cause, E (.misuse cause none) (.misuse cause none)
  notMap : ∀ {f g}, R f g → E (.misuse (.notMap f) none) (.misuse (.notMap g) none)
  badName : ∀ name, Text.hasHyphen name = true → E (.badName name none) (.badName name none)

namespace Render

variable {R : Form → Form → Prop} {E : Fault → Fault → Prop} {sub sub' : Form → Rendering}

/-! ## Rules that only put texts together -/

section

variable (texts : ∀ {f g}, R f g → SameUpTo E (sub f) (sub' g))

include texts

theorem arguments_same {fs gs : List Form} (h : List.Forall₂ R fs gs) :
    SameUpTo E (arguments sub fs) (arguments sub' gs) :=
  (SameUpTo.mapM h fun _ _ => texts).bind fun _ => .ok _

theorem concat_same {fs gs : List Form} (h : List.Forall₂ R fs gs) :
    SameUpTo E (concat sub fs) (concat sub' gs) :=
  (SameUpTo.mapM h fun _ _ => texts).bind fun _ => .ok _

theorem clauses_same {fs gs : List Form} (h : List.Forall₂ R fs gs) :
    SameUpTo E (clauses sub fs) (clauses sub' gs) := by
  fun_induction clauses sub fs generalizing gs with
  | case1 pattern body rest ih =>
    match h with
    | .cons hpattern (.cons hbody hrest) =>
      exact (texts hpattern).bind fun _ => (texts hbody).bind fun _ => (ih hrest).bind fun _ => .ok _
  | case2 fs hfs =>
    match h with
    | .nil | .cons _ .nil => exact .ok ""
    | .cons _ (.cons _ _) => exact absurd rfl (hfs _ _ _)

theorem parameterLines_same {fs gs : List Form} (h : List.Forall₂ R fs gs) (i : Nat) :
    SameUpTo E (parameterLines sub i fs) (parameterLines sub' i gs) := by
  induction h generalizing i with
  | nil => exact .ok ""
  | cons hfg _ ih => exact (texts hfg).bind fun _ => (ih (i + 1)).bind fun _ => .ok _

theorem pair_same (opening middle closing : String) {f g f' g' : Form} (hf : R f f')
    (hg : R g g') :
    SameUpTo E (pair sub opening middle closing f g) (pair sub' opening middle closing f' g') :=
  (texts hf).bind fun _ => (texts hg).bind fun _ => .ok _

theorem getSlot_same {target key target' key' : Form} (ht : R target target') (hk : R key key') :
    SameUpTo E (getSlot sub target key) (getSlot sub' target' key') :=
  (texts ht).bind fun _ => (texts hk).bind fun _ => .ok _

theorem setSlot_same {target key value target' key' value' : Form} (ht : R target target')
    (hk : R key key') (hv : R value value') :
    SameUpTo E (setSlot sub target key value) (setSlot sub' target' key' value') :=
  (texts ht).bind fun _ => (texts hk).bind fun _ => (texts hv).bind fun _ => .ok _

section

variable {es ds : List (Form × Form)} (h : List.Forall₂ (fun e d => R e.1 d.1 ∧ R e.2 d.2) es ds)

include h

theorem initialiser_same : SameUpTo E (initialiser sub es) (initialiser sub' ds) := by
  have hslots := SameUpTo.mapM (E := E) h fun e d hed =>
    (texts hed.1).bind fun key => (texts hed.2).bind fun value => .ok ("[" ++ key ++ "]=" ++ value)
  exact hslots.bind fun _ => .ok _

theorem setSlots_same {target target' : Form} (ht : R target target') :
    SameUpTo E (setSlots sub target es) (setSlots sub' target' ds) := by
  have hslot : ∀ e d : Form × Form, R e.1 d.1 ∧ R e.2 d.2 →
      SameUpTo E (setSlot sub target e.1 e.2) (setSlot sub' target' d.1 d.2) :=
    fun e d hed => setSlot_same (R := R) texts ht hed.1 hed.2
  exact (SameUpTo.mapM h hslot).bind fun _ => .ok _

end

end

/-! ## Rules that look at their arguments -/

variable (like : Likeness R E)

section

include like

theorem misuse_same (cause : Misuse) : SameUpTo E (misuse cause) (misuse cause) :=
  .error (like.misuse cause)

theorem badCount_same (c : Construct) {args args' : List Form}
    (h : args.length = args'.length) : SameUpTo E (badCount c args) (badCount c args') := by
  rw [badCount, badCount, h]
  exact misuse_same like _

/-- Lists with related items have the same head, as far as heads are looked at. -/
theorem headSymbol?_same {fs gs : List Form} (h : List.Forall₂ R fs gs) :
    (Form.list fs).headSymbol? = (Form.list gs).headSymbol? := by
  cases h with
  | nil => rfl
  | cons hhead _ =>
    rw [Form.headSymbol?_cons, Form.headSymbol?_cons, (like.resembles hhead).symbol?]

/-- Related forms are both tests or both not. -/
theorem isTest_same {f g : Form} (h : R f g) :
    f.headSymbol?.any isTest = g.headSymbol?.any isTest := by
  cases like.resembles h with
  | list hfs => rw [headSymbol?_same like hfs]
  | plain hf hg => rw [hf, hg]
  | _ => rfl

/-- A test is related to one headed by the same symbol. -/
theorem args_same {name : String} (hname : isTest name = true) {args : List Form} {g : Form}
    (h : R (.list (.symbol name :: args)) g) :
    ∃ args', g = .list (.symbol name :: args') ∧ List.Forall₂ R args args' := by
  cases like.resembles h with
  | list hfs =>
    obtain ⟨head, args', hhead, hargs, rfl⟩ := List.forall₂_cons_left_iff.mp hfs
    cases like.resembles hhead
    exact ⟨args', rfl, hargs⟩
  | plain hf _ => simp [Form.headSymbol?, hname] at hf

end

section

variable (texts : ∀ {f g}, R f g → SameUpTo E (sub f) (sub' g))

include like texts

theorem statements_same {fs gs : List Form} (h : List.Forall₂ R fs gs) :
    SameUpTo E (statements sub fs) (statements sub' gs) := by
  induction h with
  | nil => exact .ok ""
  | cons hfg _ ih =>
    rw [statements, statements, (like.resembles hfg).isSplice]
    split
    · exact ih
    · exact (texts hfg).bind fun _ => ih.bind fun _ => .ok _

theorem parts_same {fs gs : List Form} (h : List.Forall₂ R fs gs) :
    SameUpTo E (parts sub fs) (parts sub' gs) := by
  induction h with
  | nil => exact .ok []
  | cons hfg _ ih =>
    rw [parts, parts, (like.resembles hfg).isSplice]
    split
    · exact ih
    · exact (texts hfg).bind fun _ => ih.bind fun _ => .ok _

theorem joined_same (separator : String) {fs gs : List Form} (h : List.Forall₂ R fs gs) :
    SameUpTo E (joined sub separator fs) (joined sub' separator gs) :=
  (parts_same like texts h).bind fun _ => .ok _

theorem words_same {fs gs : List Form} (h : List.Forall₂ R fs gs) :
    SameUpTo E (words sub fs) (words sub' gs) :=
  joined_same like texts " " h

/-! ## Operators, conditions and branches -/

theorem bareOperation_same (op : Operator) {args args' : List Form}
    (h : List.Forall₂ R args args') :
    SameUpTo E (bareOperation sub op args) (bareOperation sub' op args') := by
  match h with
  | .nil | .cons _ .nil => exact misuse_same like _
  | .cons hfirst (.cons hsecond hrest) =>
    have hothers := SameUpTo.mapM (E := E) (.cons hsecond hrest) fun _ _ => texts
    exact (texts hfirst).bind fun _ => hothers.bind fun _ => .ok _

theorem operation_same (op : Operator) {args args' : List Form} (h : List.Forall₂ R args args') :
    SameUpTo E (operation sub op args) (operation sub' op args') :=
  (bareOperation_same like texts op h).bind fun _ => .ok _

/-- A test inside brackets, which is the one place where a list is not rendered as it stands. -/
theorem test_same {f g : Form} (h : R f g) (htest : f.headSymbol?.any isTest = true) :
    SameUpTo E (test sub f) (test sub' g) := by
  unfold Form.headSymbol? at htest
  split at htest
  · next name args =>
    have hname : isTest name = true := htest
    obtain ⟨args', rfl, hargs⟩ := args_same like hname h
    rw [test, test]
    cases Operator.named? name with
    | none => exact texts h
    | some op => exact bareOperation_same like texts op hargs
  · simp at htest

theorem condition_same {f g : Form} (h : R f g) :
    SameUpTo E (condition sub f) (condition sub' g) := by
  rw [condition, condition, ← isTest_same like h]
  split
  · next htest => exact (test_same like texts h htest).bind fun _ => .ok _
  · exact texts h

theorem negatedCondition_same {f g : Form} (h : R f g) :
    SameUpTo E (negatedCondition sub f) (negatedCondition sub' g) := by
  rw [negatedCondition, negatedCondition, ← isTest_same like h]
  split
  · exact (texts h).bind fun _ => .ok _
  · exact (texts h).bind fun _ => .ok _

section

variable (lines : ∀ {f g : Form} {body : String}, R f g → sub f = .ok body →
  f.onLines body = g.onLines body)

include lines

omit like in
theorem branch_same {f g : Form} (h : R f g) : SameUpTo E (branch sub f) (branch sub' g) := by
  have hbranch : ∀ sub f, branch sub f = (do
      let body ← sub f
      if f.onLines body then return "\n" ++ Text.trim body ++ "\n" else return " " ++ body ++ ";") :=
    fun _ _ => rfl
  rw [hbranch, hbranch]
  have htext := texts h
  generalize hf : sub f = x at htext
  generalize sub' g = y at htext
  cases htext with
  | error he => exact .error he
  | ok body =>
    show SameUpTo E (if f.onLines body then _ else _) (if g.onLines body then _ else _)
    rw [lines h hf]
    split
    · exact .ok _
    · exact .ok _

theorem conditional_same (c : Construct) {judge judge' : Form → Rendering}
    (hjudge : ∀ {f g}, R f g → SameUpTo E (judge f) (judge' g)) {args args' : List Form}
    (h : List.Forall₂ R args args') :
    SameUpTo E (conditional sub c judge args) (conditional sub' c judge' args') := by
  match h with
  | .nil | .cons _ .nil => exact badCount_same like c rfl
  | .cons htest (.cons hyes .nil) =>
    exact (hjudge htest).bind fun _ => (branch_same (R := R) texts lines hyes).bind fun _ => .ok _
  | .cons htest (.cons hyes (.cons hno .nil)) =>
    exact (hjudge htest).bind fun _ => (branch_same (R := R) texts lines hyes).bind fun _ =>
      (branch_same (R := R) texts lines hno).bind fun _ => .ok _
  | .cons _ (.cons _ (.cons _ (.cons _ hrest))) =>
    exact badCount_same like c (by simp [hrest.length_eq])

end

theorem whenTrue_same {args args' : List Form} (h : List.Forall₂ R args args') :
    SameUpTo E (whenTrue sub args) (whenTrue sub' args') := by
  match h with
  | .nil => exact badCount_same like _ rfl
  | .cons htest hforms =>
    exact (statements_same like texts hforms).bind fun _ =>
      (condition_same like texts htest).bind fun _ => .ok _

theorem whileTrue_same {args args' : List Form} (h : List.Forall₂ R args args') :
    SameUpTo E (whileTrue sub args) (whileTrue sub' args') := by
  match h with
  | .nil => exact badCount_same like _ rfl
  | .cons htest hforms =>
    exact (condition_same like texts htest).bind fun _ =>
      (statements_same like texts hforms).bind fun _ => .ok _

/-! ## Assignments and functions -/

theorem variableName_same {f g : Form} (h : R f g) :
    SameUpTo E (variableName sub f) (variableName sub' g) := by
  refine (texts h).bind fun name => ?_
  split
  · next hname => exact .error (like.badName name hname)
  · exact .ok name

theorem checkedAssignment_same {target value target' value' : Form} (ht : R target target')
    (hv : R value value') :
    SameUpTo E (checkedAssignment sub target value) (checkedAssignment sub' target' value') :=
  (variableName_same like texts ht).bind fun _ => (texts hv).bind fun _ => .ok _

theorem localVar_same {args args' : List Form} (h : List.Forall₂ R args args') :
    SameUpTo E (localVar sub args) (localVar sub' args') := by
  match h with
  | .nil => exact badCount_same like _ rfl
  | .cons ht .nil => exact (variableName_same like texts ht).bind fun _ => .ok _
  | .cons ht (.cons hv .nil) =>
    exact (checkedAssignment_same like texts ht hv).bind fun _ => .ok _
  | .cons _ (.cons _ (.cons _ hrest)) => exact badCount_same like _ (by simp [hrest.length_eq])

omit texts in
/-- A construct that takes two arguments and nothing else. -/
theorem two_same (c : Construct) {rule rule' : Form → Form → Rendering}
    (hrule : ∀ {f g f' g'}, R f f' → R g g' → SameUpTo E (rule f g) (rule' f' g'))
    {args args' : List Form} : List.Forall₂ R args args' →
    SameUpTo E
      (match args with
        | [f, g] => rule f g
        | _ => badCount c args)
      (match args' with
        | [f, g] => rule' f g
        | _ => badCount c args') := by
  intro h
  match h with
  | .nil => exact badCount_same like c rfl
  | .cons _ .nil => exact badCount_same like c rfl
  | .cons hf (.cons hg .nil) => exact hrule hf hg
  | .cons _ (.cons _ (.cons _ hrest)) => exact badCount_same like c (by simp [hrest.length_eq])

theorem setVar_same {args args' : List Form} (h : List.Forall₂ R args args') :
    SameUpTo E (setVar sub args) (setVar sub' args') :=
  two_same like .setVar (checkedAssignment_same like texts) h

theorem arraySet_same {args args' : List Form} (h : List.Forall₂ R args args') :
    SameUpTo E (arraySet sub args) (arraySet sub' args') := by
  match h with
  | .nil => exact badCount_same like _ rfl
  | .cons _ .nil => exact badCount_same like _ rfl
  | .cons _ (.cons _ .nil) => exact badCount_same like _ rfl
  | .cons harray (.cons hindex (.cons hvalue .nil)) =>
    exact (pair_same (R := R) texts "" "[" "]=" harray hindex).bind fun _ =>
      (texts hvalue).bind fun _ => .ok _
  | .cons _ (.cons _ (.cons _ (.cons _ hrest))) =>
    exact badCount_same like _ (by simp [hrest.length_eq])

theorem functionWith_same (opening : String) {params params' body body' : List Form}
    (hparams : List.Forall₂ R params params') (hbody : List.Forall₂ R body body') :
    SameUpTo E (functionWith sub opening params body) (functionWith sub' opening params' body') :=
  (parameterLines_same (R := R) texts hparams 1).bind fun _ =>
    (statements_same like texts hbody).bind fun _ => .ok _

theorem assign_same {args args' : List Form} (h : List.Forall₂ R args args') :
    SameUpTo E (assign sub args) (assign sub' args') := by
  match h with
  | .nil => exact badCount_same like _ rfl
  | .cons _ .nil => exact badCount_same like _ rfl
  | .cons ht (.cons hv .nil) =>
    cases like.resembles hv with
    | map hentries => exact setSlots_same (R := R) texts hentries ht
    | _ => exact checkedAssignment_same like texts ht hv
  | .cons _ (.cons hv (.cons _ hrest)) =>
    cases like.resembles hv with
    | _ => exact badCount_same like _ (by simp [hrest.length_eq])

theorem function_same {args args' : List Form} (h : List.Forall₂ R args args') :
    SameUpTo E (function sub args) (function sub' args') := by
  match h with
  | .nil => exact misuse_same like _
  | .cons hhead hrest =>
    cases like.resembles hhead with
    | vector hparams => exact functionWith_same like texts _ hparams hrest
    | symbol name =>
      match hrest with
      | .nil => exact misuse_same like _
      | .cons hsecond hbody =>
        cases like.resembles hsecond with
        | vector hparams => exact functionWith_same like texts _ hparams hbody
        | _ => exact misuse_same like _
    | _ => exact misuse_same like _

/-! ## Slots -/

theorem hashGet_same {args args' : List Form} (h : List.Forall₂ R args args') :
    SameUpTo E (hashGet sub args) (hashGet sub' args') :=
  two_same like .hashGet (getSlot_same (R := R) texts) h

theorem hashSet_same {args args' : List Form} (h : List.Forall₂ R args args') :
    SameUpTo E (hashSet sub args) (hashSet sub' args') := by
  match h with
  | .nil => exact badCount_same like _ rfl
  | .cons _ .nil => exact badCount_same like _ rfl
  | .cons _ (.cons _ .nil) => exact badCount_same like _ rfl
  | .cons ht (.cons hk (.cons hv .nil)) => exact setSlot_same (R := R) texts ht hk hv
  | .cons _ (.cons _ (.cons _ (.cons _ hrest))) =>
    exact badCount_same like _ (by simp [hrest.length_eq])

theorem hashMerge_same {args args' : List Form} (h : List.Forall₂ R args args') :
    SameUpTo E (hashMerge sub args) (hashMerge sub' args') := by
  match h with
  | .nil => exact badCount_same like _ rfl
  | .cons _ .nil => exact badCount_same like _ rfl
  | .cons ht (.cons hv .nil) =>
    cases like.resembles hv with
    | map hentries => exact setSlots_same (R := R) texts hentries ht
    | _ => exact .error (like.notMap hv)
  | .cons _ (.cons hv (.cons _ hrest)) =>
    cases like.resembles hv with
    | _ => exact badCount_same like _ (by simp [hrest.length_eq])

/-! ## Loops, cases and calls -/

theorem loopValues_same {f g : Form} (h : R f g) :
    SameUpTo E (loopValues sub f) (loopValues sub' g) := by
  cases like.resembles h with
  | vector hitems => exact words_same like texts hitems
  | _ => exact texts h

theorem forEach_same {args args' : List Form} (h : List.Forall₂ R args args') :
    SameUpTo E (forEach sub args) (forEach sub' args') := by
  match h with
  | .nil => exact misuse_same like _
  | .cons hbinding hforms =>
    cases like.resembles hbinding with
    | vector hitems =>
      match hitems with
      | .nil => exact misuse_same like _
      | .cons _ .nil => exact misuse_same like _
      | .cons hitem (.cons hvalues .nil) =>
        exact (loopValues_same like texts hvalues).bind fun _ => (texts hitem).bind fun _ =>
          (statements_same like texts hforms).bind fun _ => .ok _
      | .cons _ (.cons _ (.cons _ _)) => exact misuse_same like _
    | _ => exact misuse_same like _

theorem caseOf_same {args args' : List Form} (h : List.Forall₂ R args args') :
    SameUpTo E (caseOf sub args) (caseOf sub' args') := by
  match h with
  | .nil => exact misuse_same like _
  | .cons hsubject hforms =>
    rw [caseOf, caseOf, hforms.length_eq]
    split
    · exact misuse_same like _
    · exact (texts hsubject).bind fun _ =>
        (clauses_same (R := R) texts hforms).bind fun _ => .ok _

theorem newObject_same {args args' : List Form} (h : List.Forall₂ R args args') :
    SameUpTo E (newObject sub args) (newObject sub' args') := by
  match h with
  | .nil => exact badCount_same like _ rfl
  | .cons hclass hrest =>
    exact (texts hclass).bind fun _ => (arguments_same (R := R) texts hrest).bind fun _ => .ok _

theorem methodCall_same (method : String) {args args' : List Form}
    (h : List.Forall₂ R args args') :
    SameUpTo E (methodCall sub method args) (methodCall sub' method args') := by
  match h with
  | .nil => exact misuse_same like _
  | .cons htarget hrest =>
    exact (texts htarget).bind fun _ => (arguments_same (R := R) texts hrest).bind fun _ => .ok _

/-! ## Wrapping and joining -/

theorem wrapped_same (c : Construct) (opening closing : String) {args args' : List Form}
    (h : List.Forall₂ R args args') :
    SameUpTo E (wrapped sub c opening closing args) (wrapped sub' c opening closing args') := by
  match h with
  | .nil => exact badCount_same like c rfl
  | .cons hf .nil => exact (texts hf).bind fun _ => .ok _
  | .cons _ (.cons _ hrest) => exact badCount_same like c (by simp [hrest.length_eq])

theorem deref_same {args args' : List Form} (h : List.Forall₂ R args args') :
    SameUpTo E (deref sub args) (deref sub' args') := by
  match h with
  | .nil => exact badCount_same like _ rfl
  | .cons hf .nil =>
    -- forms that resemble each other are both lists or both not, and get the same brackets
    cases like.resembles hf with
    | _ => exact (texts hf).bind fun _ => .ok _
  | .cons hf (.cons _ hrest) =>
    cases like.resembles hf with
    | _ => exact badCount_same like _ (by simp [hrest.length_eq])

theorem returnFrom_same {args args' : List Form} (h : List.Forall₂ R args args') :
    SameUpTo E (returnFrom sub args) (returnFrom sub' args') := by
  match h with
  | .nil => exact .ok _
  | .cons hf .nil => exact (texts hf).bind fun _ => .ok _
  | .cons _ (.cons _ hrest) => exact badCount_same like _ (by simp [hrest.length_eq])

theorem group_same {args args' : List Form} (h : List.Forall₂ R args args') :
    SameUpTo E (group sub args) (group sub' args') :=
  (parts_same like texts h).bind fun _ => .ok _

theorem apply_same {args args' : List Form} (h : List.Forall₂ R args args')
    (hspread : R (.list (spread args)) (.list (spread args'))) :
    SameUpTo E (apply sub args) (apply sub' args') := by
  match h with
  | .nil => exact badCount_same like _ rfl
  | .cons _ _ => exact texts hspread

/-! ## The rule for every form -/

section

variable (lines : ∀ {f g : Form} {body : String}, R f g → sub f = .ok body →
  f.onLines body = g.onLines body)

include lines

theorem construct_same (c : Construct) {args args' : List Form} (h : List.Forall₂ R args args')
    (hspread : c = .apply → R (.list (spread args)) (.list (spread args'))) :
    SameUpTo E (construct sub c args) (construct sub' c args') := by
  cases c with
  | ifElse => exact conditional_same like texts lines _ (condition_same like texts) h
  | ifNot => exact conditional_same like texts lines _ (negatedCondition_same like texts) h
  | whenTrue => exact whenTrue_same like texts h
  | whileTrue => exact whileTrue_same like texts h
  | forEach => exact forEach_same like texts h
  | caseOf => exact caseOf_same like texts h
  | localVar => exact localVar_same like texts h
  | assign => exact assign_same like texts h
  | define => exact two_same like .define (pair_same (R := R) texts "" "=" "") h
  | calculate => exact two_same like .calculate (pair_same (R := R) texts "let " "=" "") h
  | aliasFor => exact two_same like .aliasFor (pair_same (R := R) texts "alias " "='" "'") h
  | concat => exact concat_same (R := R) texts h
  | quoted => exact wrapped_same like texts _ "\"" "\"" h
  | println => exact (words_same like texts h).bind fun _ => .ok _
  | print => exact (words_same like texts h).bind fun _ => .ok _
  | returnFrom => exact returnFrom_same like texts h
  | setVar => exact setVar_same like texts h
  | newObject => exact newObject_same like texts h
  | arrayGet => exact two_same like .arrayGet (pair_same (R := R) texts "$\x7b" "[" "]\x7d") h
  | arraySet => exact arraySet_same like texts h
  | hashGet => exact hashGet_same like texts h
  | hashMerge => exact hashMerge_same like texts h
  | hashSet => exact hashSet_same like texts h
  | deref => exact deref_same like texts h
  | block => exact statements_same like texts h
  | group => exact group_same like texts h
  | pipe => exact joined_same like texts " | " h
  | chainOr => exact joined_same like texts " || " h
  | chainAnd => exact joined_same like texts " && " h
  | apply => exact apply_same like texts h (hspread rfl)
  | function => exact function_same like texts h
  | negate => exact wrapped_same like texts _ "! " "" h
  | predicate p => exact wrapped_same like texts _ (p.flag ++ " ") "" h

theorem headed_same (name : String) {args args' : List Form} (h : List.Forall₂ R args args')
    (hname : R (.symbol name) (.symbol name))
    (hspread : name = "apply" → R (.list (spread args)) (.list (spread args'))) :
    SameUpTo E (headed sub name args) (headed sub' name args') := by
  rw [headed, headed]
  cases hc : Construct.named? name with
  | some c =>
    refine construct_same like texts lines c h fun happly => hspread ?_
    rw [← Construct.name_of_named hc, happly]
    rfl
  | none =>
    cases Operator.named? name with
    | some op => exact operation_same like texts op h
    | none =>
      cases method? name with
      | some method => exact methodCall_same like texts method h
      | none => exact words_same like texts (.cons hname h)

theorem layout_list_same {cx cx' : Setting} {fs gs : List Form} (h : List.Forall₂ R fs gs)
    (hcall : ∀ {es ds args args'}, fs = .map es :: args → gs = .map ds :: args' →
      SameUpTo E (extensionCall cx ⟨es⟩ args) (extensionCall cx' ⟨ds⟩ args'))
    (hspread : ∀ {args args'}, fs = .symbol "apply" :: args → gs = .symbol "apply" :: args' →
      R (.list (spread args)) (.list (spread args'))) :
    SameUpTo E (layout cx sub (.list fs)) (layout cx' sub' (.list gs)) := by
  match h with
  | .nil => exact .ok ""
  | .cons hhead hargs =>
    cases like.resembles hhead with
    | symbol name =>
      refine headed_same like texts lines name hargs hhead ?_
      rintro rfl
      exact hspread rfl rfl
    | map _ => exact hcall rfl rfl
    | _ => exact words_same like texts (.cons hhead hargs)

end

end

end Render

end ScriptTree
