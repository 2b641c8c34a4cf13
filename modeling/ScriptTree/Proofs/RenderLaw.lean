/-
  The walk through the rules.

  Each rule of rendering gets one lemma here: if the texts of its parts have a property, so has its
  own text.  The property and the class of forms are those of a `FormLaw`, and nothing else is used
  about them.  `construct_law` has one case for each construct, `layout_law` is one level of
  rendering, and `render_law` is the result, by induction on the levels: forms of the class render
  to texts with the property.
-/
import ScriptTree.Proofs.TextLaw

namespace ScriptTree.Render

variable {C : Form → Prop} {P : String → Prop} (law : FormLaw C P) {sub : Form → Rendering}

include law

/-! ## Operators, conditions and branches -/

theorem enquote_law {s : String} (h : P s) : P (enquote s) :=
  law.insert "\"" "\"" s (law.literal "\"\"" (by decide)) h

theorem operand_law (op : Operator) {s : String} (h : P s) : P (op.operand s) := by
  unfold Operator.operand
  split
  · exact enquote_law law h
  · exact h

theorem group_law (op : Operator) {s : String} (h : P s) : P (op.group s) := by
  unfold Operator.group
  split
  · exact law.insert "\\( " " \\)" s (law.literal "\\(  \\)" (by decide)) h
  · exact law.insert "(" ")" s (law.literal "()" (by decide)) h

theorem between_law {op : Operator} (hop : op ∈ Operator.all) {left right : String} (hl : P left)
    (hr : P right) : P (op.between left right) := by
  have shells : ∀ o ∈ Operator.all,
      decide (Text.WellBracketed o.shell ∧ '_' ∉ o.shell.toList) = true := by decide +kernel
  have hspace : P " " := law.literal " " (by decide)
  have hshell : P op.shell := law.literal _ (shells op hop)
  exact law.append (law.append (law.append (law.append hl hspace) hshell) hspace) hr

theorem fold_law {op : Operator} (hop : op ∈ Operator.all) {left : String} {rest : List String}
    (hl : P left) (hr : ∀ t ∈ rest, P t) : P (op.fold left rest) := by
  fun_induction Operator.fold op left rest with
  | case1 left => exact hl
  | case2 left right => exact between_law law hop hl (hr right (by simp))
  | case3 left right rest _ ih =>
    have hstep := group_law law op (between_law law hop hl (hr right (by simp)))
    exact ih hstep fun t ht => hr t (List.mem_cons_of_mem right ht)

section

variable (hsub : Keeps C P sub)

include hsub

theorem bareOperation_law {op : Operator} (hop : op ∈ Operator.all) {args : List Form}
    (hargs : ∀ f ∈ args, C f) {s : String} (h : bareOperation sub op args = .ok s) : P s := by
  unfold bareOperation at h
  split at h
  · next first second rest =>
    obtain ⟨left, hleft, others, hothers, rfl⟩ : ∃ left, sub first = .ok left ∧
        ∃ others, (second :: rest).mapM sub = .ok others ∧
          op.fold (op.operand left) (others.map op.operand) = s := by
      simpa only [bind_eq_ok, pure_eq_ok] using h
    have hall := hsub.mapM (fun f hf => hargs f (List.mem_cons_of_mem first hf)) hothers
    apply fold_law law hop (operand_law law op (hsub _ _ (hargs first (by simp)) hleft))
    intro t ht
    obtain ⟨u, hu, rfl⟩ := List.mem_map.mp ht
    exact operand_law law op (hall u hu)
  · exact absurd h (misuse_ne_ok _ _)

theorem operation_law {op : Operator} (hop : op ∈ Operator.all) {args : List Form}
    (hargs : ∀ f ∈ args, C f) {s : String} (h : operation sub op args = .ok s) : P s := by
  obtain ⟨bare, hbare, rfl⟩ : ∃ bare, bareOperation sub op args = .ok bare ∧ op.group bare = s := by
    simpa [operation] using h
  exact group_law law op (bareOperation_law law hsub hop hargs hbare)

theorem test_law {f : Form} (hf : C f) {s : String} (h : test sub f = .ok s) : P s := by
  unfold test at h
  split at h
  · next name args =>
    split at h
    · next op hop =>
      have hargs : ∀ g ∈ args, C g := fun g hg => law.items _ hf g (List.mem_cons_of_mem _ hg)
      exact bareOperation_law law hsub (Operator.mem_of_named hop) hargs h
    · exact hsub _ _ hf h
  · exact hsub _ _ hf h

theorem condition_law : Keeps C P (condition sub) := by
  intro f s hf h
  unfold condition at h
  split at h
  · obtain ⟨t, ht, rfl⟩ : ∃ t, test sub f = .ok t ∧ "[ " ++ t ++ " ]" = s := by simpa using h
    exact law.insert "[ " " ]" t (law.literal "[  ]" (by decide)) (test_law law hsub hf ht)
  · exact hsub f s hf h

theorem negatedCondition_law : Keeps C P (negatedCondition sub) := by
  intro f s hf h
  unfold negatedCondition at h
  split at h
  · obtain ⟨t, ht, rfl⟩ : ∃ t, sub f = .ok t ∧ "[ ! " ++ t ++ " ]" = s := by simpa using h
    exact law.insert "[ ! " " ]" t (law.literal "[ !  ]" (by decide)) (hsub f t hf ht)
  · obtain ⟨t, ht, rfl⟩ : ∃ t, sub f = .ok t ∧ "! " ++ t = s := by simpa using h
    exact law.append (law.literal "! " (by decide)) (hsub f t hf ht)

theorem branch_law : Keeps C P (branch sub) := by
  intro f s hf h
  obtain ⟨body, hbody, hs⟩ := bind_eq_ok.mp h
  have hb := hsub f body hf hbody
  have hnewline : P "\n" := law.literal "\n" (by decide)
  split at hs
  · obtain rfl := pure_eq_ok.mp hs
    exact law.append (law.append hnewline (law.trim body hb)) hnewline
  · obtain rfl := pure_eq_ok.mp hs
    exact law.append (law.append (law.literal " " (by decide)) hb) (law.literal ";" (by decide))

theorem conditional_law {judge : Form → Rendering} (hjudge : Keeps C P judge) (c : Construct)
    {args : List Form} (hargs : ∀ f ∈ args, C f) {s : String}
    (h : conditional sub c judge args = .ok s) : P s := by
  have hif : P "if " := law.literal "if " (by decide)
  have hthen : P "; then" := law.literal "; then" (by decide)
  have helse : P "else" := law.literal "else" (by decide)
  have hfi : P "fi" := law.literal "fi" (by decide)
  unfold conditional at h
  split at h
  · next test yes =>
    obtain ⟨t, ht, y, hy, rfl⟩ : ∃ t, judge test = .ok t ∧ ∃ y, branch sub yes = .ok y ∧
        "if " ++ t ++ "; then" ++ y ++ "fi" = s := by simpa only [bind_eq_ok, pure_eq_ok] using h
    have ht := hjudge _ _ (hargs test (by simp)) ht
    have hy := branch_law law hsub _ _ (hargs yes (by simp)) hy
    exact law.append (law.append (law.append (law.append hif ht) hthen) hy) hfi
  · next test yes no =>
    obtain ⟨t, ht, y, hy, n, hn, rfl⟩ : ∃ t, judge test = .ok t ∧ ∃ y, branch sub yes = .ok y ∧
        ∃ n, branch sub no = .ok n ∧ "if " ++ t ++ "; then" ++ y ++ "else" ++ n ++ "fi" = s := by
      simpa only [bind_eq_ok, pure_eq_ok] using h
    have ht := hjudge _ _ (hargs test (by simp)) ht
    have hy := branch_law law hsub _ _ (hargs yes (by simp)) hy
    have hn := branch_law law hsub _ _ (hargs no (by simp)) hn
    exact law.append (law.append (law.append (law.append (law.append (law.append hif ht) hthen) hy)
      helse) hn) hfi
  · exact absurd h (badCount_ne_ok _ _ _)

theorem whenTrue_law {args : List Form} (hargs : ∀ f ∈ args, C f) {s : String}
    (h : whenTrue sub args = .ok s) : P s := by
  unfold whenTrue at h
  split at h
  · next test forms =>
    obtain ⟨b, hb, t, ht, rfl⟩ : ∃ b, statements sub forms = .ok b ∧
        ∃ t, condition sub test = .ok t ∧ "if " ++ t ++ "; then\n" ++ bodyOr b ++ "\nfi" = s := by
      simpa only [bind_eq_ok, pure_eq_ok] using h
    have hb := statements_law law hsub (fun f hf => hargs f (List.mem_cons_of_mem test hf)) hb
    have ht := condition_law law hsub _ _ (hargs test (by simp)) ht
    have hbody : P (bodyOr b) := by
      unfold bodyOr
      split
      · exact law.literal ":" (by decide)
      · exact law.trim b hb
    exact law.append (law.append (law.append (law.append (law.literal "if " (by decide)) ht)
      (law.literal "; then\n" (by decide))) hbody) (law.literal "\nfi" (by decide))
  · exact absurd h (badCount_ne_ok _ _ _)

theorem whileTrue_law {args : List Form} (hargs : ∀ f ∈ args, C f) {s : String}
    (h : whileTrue sub args = .ok s) : P s := by
  unfold whileTrue at h
  split at h
  · next test forms =>
    obtain ⟨t, ht, b, hb, rfl⟩ : ∃ t, condition sub test = .ok t ∧
        ∃ b, statements sub forms = .ok b ∧ "while " ++ t ++ "; do\n" ++ b ++ "done" = s := by
      simpa only [bind_eq_ok, pure_eq_ok] using h
    have ht := condition_law law hsub _ _ (hargs test (by simp)) ht
    have hb := statements_law law hsub (fun f hf => hargs f (List.mem_cons_of_mem test hf)) hb
    exact law.append (law.append (law.append (law.append (law.literal "while " (by decide)) ht)
      (law.literal "; do\n" (by decide))) hb) (law.literal "done" (by decide))
  · exact absurd h (badCount_ne_ok _ _ _)

/-! ## Slots -/

theorem setSlot_law {target key value : Form} {items : List Form} (hlist : C (.list items))
    (hitems : Form.touchesSlot items = true) (ht : C target) (hk : C key) (hv : C value)
    {s : String} (h : setSlot sub target key value = .ok s) : P s := by
  obtain ⟨hset, -, hname⟩ := law.slot items hlist hitems
  obtain ⟨t, htt, k, hkk, v, hvv, rfl⟩ : ∃ t, sub target = .ok t ∧ ∃ k, sub key = .ok k ∧
      ∃ v, sub value = .ok v ∧
        "hash_set " ++ Text.slotName t ++ " " ++ Text.slotName k ++ " " ++ v = s := by
    simpa only [setSlot, bind_eq_ok, pure_eq_ok] using h
  have ht := hname t (hsub _ _ ht htt)
  have hk := hname k (hsub _ _ hk hkk)
  have hspace : P " " := law.literal " " (by decide)
  exact law.append (law.append (law.append (law.append (law.append hset ht) hspace) hk) hspace)
    (hsub _ _ hv hvv)

theorem setSlots_law {target : Form} {es : List (Form × Form)} {items : List Form}
    (hlist : C (.list items)) (hitems : Form.touchesSlot items = true) (ht : C target)
    (hes : C (.map es)) {s : String} (h : setSlots sub target es = .ok s) : P s := by
  obtain ⟨ts, hts, rfl⟩ : ∃ ts, (es.mapM fun e => setSlot sub target e.1 e.2) = .ok ts ∧
      "\n".intercalate ts = s := by simpa [setSlots] using h
  apply law.intercalate (law.literal "\n" (by decide))
  intro t htt
  obtain ⟨e, he, het⟩ := exists_of_mem_mapM hts t htt
  obtain ⟨hk, hv⟩ := law.entries es hes e he
  exact setSlot_law law hsub hlist hitems ht hk hv het

theorem getSlot_law {target key : Form} {items : List Form} (hlist : C (.list items))
    (hitems : Form.touchesSlot items = true) (ht : C target) (hk : C key) {s : String}
    (h : getSlot sub target key = .ok s) : P s := by
  obtain ⟨-, hecho, hname⟩ := law.slot items hlist hitems
  obtain ⟨t, htt, k, hkk, rfl⟩ : ∃ t, sub target = .ok t ∧ ∃ k, sub key = .ok k ∧
      "$(hash_echo " ++ Text.slotName t ++ " " ++ Text.slotName k ++ " -n)" = s := by
    simpa only [getSlot, bind_eq_ok, pure_eq_ok] using h
  exact law.insert_two hecho (hname t (hsub _ _ ht htt)) (hname k (hsub _ _ hk hkk))

theorem hashGet_law {args : List Form} (hlist : C (.list (.symbol "get" :: args)))
    (hargs : ∀ f ∈ args, C f) {s : String} (h : hashGet sub args = .ok s) : P s := by
  unfold hashGet at h
  split at h
  · next target key =>
    exact getSlot_law law hsub hlist rfl (hargs target (by simp)) (hargs key (by simp)) h
  · exact absurd h (badCount_ne_ok _ _ _)

theorem hashSet_law {args : List Form} (hlist : C (.list (.symbol "assoc!" :: args)))
    (hargs : ∀ f ∈ args, C f) {s : String} (h : hashSet sub args = .ok s) : P s := by
  unfold hashSet at h
  split at h
  · next target key value =>
    exact setSlot_law law hsub hlist rfl (hargs target (by simp)) (hargs key (by simp))
      (hargs value (by simp)) h
  · exact absurd h (badCount_ne_ok _ _ _)

theorem hashMerge_law {args : List Form} (hlist : C (.list (.symbol "merge!" :: args)))
    (hargs : ∀ f ∈ args, C f) {s : String} (h : hashMerge sub args = .ok s) : P s := by
  unfold hashMerge at h
  split at h
  · next target entries =>
    exact setSlots_law law hsub hlist rfl (hargs target (by simp)) (hargs (.map entries) (by simp)) h
  · exact absurd h (misuse_ne_ok _ _)
  · exact absurd h (badCount_ne_ok _ _ _)

/-! ## Assignments and functions -/

omit law in
theorem variableName_law : Keeps C P (variableName sub) := by
  intro f s hf h
  obtain ⟨name, hname, hs⟩ := bind_eq_ok.mp h
  split at hs
  · exact absurd hs (by simp)
  · obtain rfl := pure_eq_ok.mp hs
    exact hsub f name hf hname

theorem checkedAssignment_law {target value : Form} (ht : C target) (hv : C value) {s : String}
    (h : checkedAssignment sub target value = .ok s) : P s := by
  obtain ⟨n, hn, v, hvv, rfl⟩ : ∃ n, variableName sub target = .ok n ∧ ∃ v, sub value = .ok v ∧
      n ++ "=" ++ v = s := by simpa only [checkedAssignment, bind_eq_ok, pure_eq_ok] using h
  exact law.append (law.append (variableName_law hsub _ _ ht hn) (law.literal "=" (by decide)))
    (hsub _ _ hv hvv)

theorem pair_law {opening middle closing : String} (hframe : P (opening ++ middle ++ closing))
    {first second : Form} (h1 : C first) (h2 : C second) {s : String}
    (h : pair sub opening middle closing first second = .ok s) : P s := by
  obtain ⟨a, ha, b, hb, rfl⟩ : ∃ a, sub first = .ok a ∧ ∃ b, sub second = .ok b ∧
      opening ++ a ++ middle ++ b ++ closing = s := by
    simpa only [pair, bind_eq_ok, pure_eq_ok] using h
  exact law.insert_two hframe (hsub _ _ h1 ha) (hsub _ _ h2 hb)

theorem localVar_law {args : List Form} (hargs : ∀ f ∈ args, C f) {s : String}
    (h : localVar sub args = .ok s) : P s := by
  have hlocal : P "local " := law.literal "local " (by decide)
  unfold localVar at h
  split at h
  · next target =>
    obtain ⟨n, hn, rfl⟩ : ∃ n, variableName sub target = .ok n ∧ "local " ++ n = s := by
      simpa using h
    exact law.append hlocal (variableName_law hsub _ _ (hargs target (by simp)) hn)
  · next target value =>
    obtain ⟨t, ht, rfl⟩ : ∃ t, checkedAssignment sub target value = .ok t ∧ "local " ++ t = s := by
      simpa using h
    exact law.append hlocal
      (checkedAssignment_law law hsub (hargs target (by simp)) (hargs value (by simp)) ht)
  · exact absurd h (badCount_ne_ok _ _ _)

/-- Only a map makes `var` set slots, and then the list touches them. -/
theorem assign_law {args : List Form} (hlist : C (.list (.symbol "var" :: args)))
    (hargs : ∀ f ∈ args, C f) {s : String} (h : assign sub args = .ok s) : P s := by
  unfold assign at h
  split at h
  · next target entries =>
    exact setSlots_law law hsub hlist rfl (hargs target (by simp)) (hargs (.map entries) (by simp)) h
  · next target value _ =>
    exact checkedAssignment_law law hsub (hargs target (by simp)) (hargs value (by simp)) h
  · exact absurd h (badCount_ne_ok _ _ _)

omit law hsub in
/-- A construct that takes two arguments and nothing else. -/
theorem two_law (rule : Form → Form → Rendering) (c : Construct)
    (hrule : ∀ f g s, C f → C g → rule f g = .ok s → P s) {args : List Form}
    (hargs : ∀ f ∈ args, C f) {s : String}
    (h : (match args with
      | [f, g] => rule f g
      | _ => badCount c args) = .ok s) : P s := by
  split at h
  · next f g => exact hrule f g s (hargs f (by simp)) (hargs g (by simp)) h
  · exact absurd h (badCount_ne_ok _ _ _)

theorem setVar_law {args : List Form} (hargs : ∀ f ∈ args, C f) {s : String}
    (h : setVar sub args = .ok s) : P s :=
  two_law (checkedAssignment sub) .setVar
    (fun _ _ _ hf hg => checkedAssignment_law law hsub hf hg) hargs h

theorem pairOf_law (c : Construct) {opening middle closing : String}
    (hframe : P (opening ++ middle ++ closing)) {args : List Form} (hargs : ∀ f ∈ args, C f)
    {s : String}
    (h : (match args with
      | [f, g] => pair sub opening middle closing f g
      | _ => badCount c args) = .ok s) : P s :=
  two_law (pair sub opening middle closing) c
    (fun _ _ _ hf hg => pair_law law hsub hframe hf hg) hargs h

theorem arraySet_law {args : List Form} (hargs : ∀ f ∈ args, C f) {s : String}
    (h : arraySet sub args = .ok s) : P s := by
  have hframe : P ("" ++ "[" ++ "]=") := law.literal _ (by decide)
  unfold arraySet at h
  split at h
  · next array index value =>
    obtain ⟨e, he, v, hv, rfl⟩ : ∃ e, pair sub "" "[" "]=" array index = .ok e ∧
        ∃ v, sub value = .ok v ∧ e ++ v = s := by simpa only [bind_eq_ok, pure_eq_ok] using h
    have he := pair_law law hsub hframe (hargs array (by simp)) (hargs index (by simp)) he
    exact law.append he (hsub _ _ (hargs value (by simp)) hv)
  · exact absurd h (badCount_ne_ok _ _ _)

theorem parameterLines_law (i : Nat) {ps : List Form} (hps : ∀ p ∈ ps, C p) {s : String}
    (h : parameterLines sub i ps = .ok s) : P s := by
  induction ps generalizing i s with
  | nil =>
    obtain rfl := Except.ok.inj h
    exact law.empty
  | cons p ps ih =>
    obtain ⟨n, hn, r, hr, rfl⟩ : ∃ n, sub p = .ok n ∧ ∃ r, parameterLines sub (i + 1) ps = .ok r ∧
        n ++ "=$" ++ toString i ++ "\n" ++ r = s := by
      simpa only [parameterLines, bind_eq_ok, pure_eq_ok] using h
    have hn := hsub _ _ (hps p (by simp)) hn
    have hr := ih (i + 1) (fun q hq => hps q (List.mem_cons_of_mem p hq)) hr
    exact law.append (law.append (law.append (law.append hn (law.literal "=$" (by decide)))
      (natText_law law i)) (law.literal "\n" (by decide))) hr

theorem functionWith_law {opening : String} (hopening : P (opening ++ "\x7d\n"))
    {params body : List Form} (hparams : ∀ p ∈ params, C p) (hbody : ∀ f ∈ body, C f) {s : String}
    (h : functionWith sub opening params body = .ok s) : P s := by
  obtain ⟨ps, hps, b, hb, rfl⟩ : ∃ ps, parameterLines sub 1 params = .ok ps ∧
      ∃ b, statements sub body = .ok b ∧ opening ++ ps ++ b ++ "\x7d\n" = s := by
    simpa only [functionWith, bind_eq_ok, pure_eq_ok] using h
  have hps := parameterLines_law law hsub 1 hparams hps
  have hb := statements_law law hsub hbody hb
  have hinside := law.insert opening "\x7d\n" (ps ++ b) hopening (law.append hps hb)
  rwa [← String.append_assoc] at hinside

theorem function_law {args : List Form} (hargs : ∀ f ∈ args, C f) {s : String}
    (h : function sub args = .ok s) : P s := by
  unfold function at h
  split at h
  · next name params body =>
    have hname := law.text (.symbol name) (hargs _ (by simp)) name (List.mem_singleton_self name)
    have hopening : P ("function " ++ name ++ "() \x7b\n" ++ "\x7d\n") := by
      have hframe := law.insert "function " ("() \x7b\n" ++ "\x7d\n") name
        (law.literal "function () \x7b\n\x7d\n" (by decide)) hname
      rwa [← String.append_assoc] at hframe
    have hparams := law.elements params (hargs (.vector params) (by simp))
    exact functionWith_law law hsub hopening hparams (fun f hf => hargs f (by simp [hf])) h
  · next params body =>
    have hparams := law.elements params (hargs (.vector params) (by simp))
    have hopening := law.literal ("function () \x7b\n" ++ "\x7d\n") (by decide)
    exact functionWith_law law hsub hopening hparams (fun f hf => hargs f (by simp [hf])) h
  · exact absurd h (misuse_ne_ok _ _)

/-! ## Loops, cases and calls -/

theorem forEach_law {args : List Form} (hargs : ∀ f ∈ args, C f) {s : String}
    (h : forEach sub args = .ok s) : P s := by
  unfold forEach at h
  split at h
  · next item values forms =>
    obtain ⟨v, hv, i, hi, b, hb, rfl⟩ : ∃ v, loopValues sub values = .ok v ∧
        ∃ i, sub item = .ok i ∧ ∃ b, statements sub forms = .ok b ∧
          "for " ++ i ++ " in " ++ v ++ "; do\n" ++ b ++ "done" = s := by
      simpa only [bind_eq_ok, pure_eq_ok] using h
    have hbinding := law.elements _ (hargs (.vector [item, values]) (by simp))
    have hvalues := hbinding values (by simp)
    have hv : P v := by
      unfold loopValues at hv
      split at hv
      · next items => exact words_law law hsub (law.elements items hvalues) hv
      · exact hsub _ _ hvalues hv
    have hi := hsub _ _ (hbinding item (by simp)) hi
    have hb := statements_law law hsub (fun f hf => hargs f (by simp [hf])) hb
    exact law.append (law.append (law.append (law.append (law.append (law.append
      (law.literal "for " (by decide)) hi) (law.literal " in " (by decide))) hv)
      (law.literal "; do\n" (by decide))) hb) (law.literal "done" (by decide))
  · exact absurd h (misuse_ne_ok _ _)

/-- The clauses close a bracket each, so the property has to hold of that. -/
theorem clauses_law (hclause : P (")\n" ++ ";;\n")) {fs : List Form} (hfs : ∀ f ∈ fs, C f)
    {s : String} (h : clauses sub fs = .ok s) : P s := by
  fun_induction clauses sub fs generalizing s with
  | case1 pattern body rest ih =>
    obtain ⟨p, hp, b, hb, r, hr, rfl⟩ : ∃ p, sub pattern = .ok p ∧ ∃ b, sub body = .ok b ∧
        ∃ r, clauses sub rest = .ok r ∧ p ++ ")\n" ++ b ++ ";;\n" ++ r = s := by
      simpa only [bind_eq_ok, pure_eq_ok] using h
    have hp := hsub _ _ (hfs pattern (by simp)) hp
    have hr := ih (fun f hf => hfs f (by simp [hf])) hr
    have hframe : P (p ++ ")\n" ++ ";;\n") := by
      rw [String.append_assoc]
      exact law.append hp hclause
    exact law.append (law.insert _ _ b hframe (hsub _ _ (hfs body (by simp)) hb)) hr
  | case2 fs _ =>
    obtain rfl := Except.ok.inj h
    exact law.empty

theorem caseOf_law {args : List Form} (hlist : C (.list (.symbol "case" :: args))) {s : String}
    (h : caseOf sub args = .ok s) : P s := by
  have hargs : ∀ f ∈ args, C f := fun f hf => law.items _ hlist f (List.mem_cons_of_mem _ hf)
  unfold caseOf at h
  split at h
  · exact absurd h (misuse_ne_ok _ _)
  · next subject forms =>
    split at h
    · exact absurd h (misuse_ne_ok _ _)
    · obtain ⟨t, ht, r, hr, rfl⟩ : ∃ t, sub subject = .ok t ∧ ∃ r, clauses sub forms = .ok r ∧
          "case " ++ t ++ " in\n" ++ r ++ "esac" = s := by
        simpa only [bind_eq_ok, pure_eq_ok] using h
      have ht := hsub _ _ (hargs subject (by simp)) ht
      have hr := clauses_law law hsub (law.clause _ hlist) (fun f hf => hargs f (by simp [hf])) hr
      exact law.append (law.append (law.append (law.append (law.literal "case " (by decide)) ht)
        (law.literal " in\n" (by decide))) hr) (law.literal "esac" (by decide))

theorem newObject_law {args : List Form} (hargs : ∀ f ∈ args, C f) {s : String}
    (h : newObject sub args = .ok s) : P s := by
  unfold newObject at h
  split at h
  · next className rest =>
    obtain ⟨c, hc, r, hr, rfl⟩ : ∃ c, sub className = .ok c ∧ ∃ r, arguments sub rest = .ok r ∧
        "new " ++ c ++ r = s := by simpa only [bind_eq_ok, pure_eq_ok] using h
    have hc := hsub _ _ (hargs className (by simp)) hc
    have hr := arguments_law law hsub (fun f hf => hargs f (List.mem_cons_of_mem _ hf)) hr
    exact law.append (law.append (law.literal "new " (by decide)) hc) hr
  · exact absurd h (badCount_ne_ok _ _ _)

theorem methodCall_law {method : String} (hmethod : P method) {args : List Form}
    (hargs : ∀ f ∈ args, C f) {s : String} (h : methodCall sub method args = .ok s) : P s := by
  unfold methodCall at h
  split at h
  · next target rest =>
    obtain ⟨t, ht, r, hr, rfl⟩ : ∃ t, sub target = .ok t ∧ ∃ r, arguments sub rest = .ok r ∧
        t ++ "." ++ method ++ r = s := by simpa only [bind_eq_ok, pure_eq_ok] using h
    have ht := hsub _ _ (hargs target (by simp)) ht
    have hr := arguments_law law hsub (fun f hf => hargs f (List.mem_cons_of_mem _ hf)) hr
    exact law.append (law.append (law.append ht (law.literal "." (by decide))) hmethod) hr
  · exact absurd h (misuse_ne_ok _ _)

/-! ## Wrapping and joining -/

theorem wrapped_law (c : Construct) {opening closing : String} (hframe : P (opening ++ closing))
    {args : List Form} (hargs : ∀ f ∈ args, C f) {s : String}
    (h : wrapped sub c opening closing args = .ok s) : P s := by
  unfold wrapped at h
  split at h
  · next f =>
    obtain ⟨t, ht, rfl⟩ : ∃ t, sub f = .ok t ∧ opening ++ t ++ closing = s := by simpa using h
    exact law.insert opening closing t hframe (hsub _ _ (hargs f (by simp)) ht)
  · exact absurd h (badCount_ne_ok _ _ _)

theorem deref_law {args : List Form} (hargs : ∀ f ∈ args, C f) {s : String}
    (h : deref sub args = .ok s) : P s := by
  unfold deref at h
  split at h
  · exact wrapped_law law hsub .deref (law.literal ("$(" ++ ")") (by decide)) hargs h
  · exact wrapped_law law hsub .deref (law.literal ("$\x7b" ++ "\x7d") (by decide)) hargs h

theorem command_law {name : String} (hname : P name) {args : List Form} (hargs : ∀ f ∈ args, C f)
    {s : String} (h : (do return command name (← words sub args) : Rendering) = .ok s) : P s := by
  obtain ⟨w, hw, rfl⟩ : ∃ w, words sub args = .ok w ∧ command name w = s := by simpa using h
  unfold command
  split
  · exact hname
  · exact law.append (law.append hname (law.literal " " (by decide))) (words_law law hsub hargs hw)

theorem returnFrom_law {args : List Form} (hargs : ∀ f ∈ args, C f) {s : String}
    (h : returnFrom sub args = .ok s) : P s := by
  unfold returnFrom at h
  split at h
  · obtain rfl := Except.ok.inj h
    exact law.literal "return" (by decide)
  · next f =>
    obtain ⟨t, ht, rfl⟩ : ∃ t, sub f = .ok t ∧ "return " ++ t = s := by simpa using h
    exact law.append (law.literal "return " (by decide)) (hsub _ _ (hargs f (by simp)) ht)
  · exact absurd h (badCount_ne_ok _ _ _)

theorem concat_law {args : List Form} (hargs : ∀ f ∈ args, C f) {s : String}
    (h : concat sub args = .ok s) : P s := by
  obtain ⟨ts, hts, rfl⟩ : ∃ ts, args.mapM sub = .ok ts ∧ String.join ts = s := by
    simpa [concat] using h
  exact law.join (hsub.mapM hargs hts)

theorem groupOf_law {args : List Form} (hargs : ∀ f ∈ args, C f) {s : String}
    (h : group sub args = .ok s) : P s := by
  obtain ⟨ts, hts, rfl⟩ : ∃ ts, parts sub args = .ok ts ∧
      "\x7b " ++ "; ".intercalate (ts.map Text.trim) ++ "; \x7d" = s := by simpa [group] using h
  have hall := parts_law hsub hargs hts
  have hlist : P ("; ".intercalate (ts.map Text.trim)) := by
    apply law.intercalate (law.literal "; " (by decide))
    intro t ht
    obtain ⟨u, hu, rfl⟩ := List.mem_map.mp ht
    exact law.trim u (hall u hu)
  exact law.insert "\x7b " "; \x7d" _ (law.literal "\x7b ; \x7d" (by decide)) hlist

theorem apply_law {args : List Form} (hlist : C (.list (.symbol "apply" :: args))) {s : String}
    (h : apply sub args = .ok s) : P s := by
  unfold apply at h
  split at h
  · exact absurd h (badCount_ne_ok _ _ _)
  · exact hsub _ _ (law.spread args hlist) h

/-! ## The rule for every form -/

omit hsub in
theorem flag_law {p : Predicate} (hp : p ∈ Predicate.all) : P (p.flag ++ " " ++ "") := by
  have hall : ∀ q ∈ Predicate.all,
      decide (Text.WellBracketed (q.flag ++ " " ++ "") ∧
        '_' ∉ (q.flag ++ " " ++ "").toList) = true := by decide
  exact law.literal _ (hall p hp)

theorem construct_law {name : String} {c : Construct} (hc : Construct.named? name = some c)
    {args : List Form} (hlist : C (.list (.symbol name :: args))) {s : String}
    (h : construct sub c args = .ok s) : P s := by
  obtain rfl := Construct.name_of_named hc
  have hargs : ∀ f ∈ args, C f := fun f hf => law.items _ hlist f (List.mem_cons_of_mem _ hf)
  cases c with
  | ifElse => exact conditional_law law hsub (condition_law law hsub) _ hargs h
  | ifNot => exact conditional_law law hsub (negatedCondition_law law hsub) _ hargs h
  | whenTrue => exact whenTrue_law law hsub hargs h
  | whileTrue => exact whileTrue_law law hsub hargs h
  | forEach => exact forEach_law law hsub hargs h
  | caseOf => exact caseOf_law law hsub hlist h
  | localVar => exact localVar_law law hsub hargs h
  | assign => exact assign_law law hsub hlist hargs h
  | define => exact pairOf_law law hsub .define (law.literal ("" ++ "=" ++ "") (by decide)) hargs h
  | calculate =>
    exact pairOf_law law hsub .calculate (law.literal ("let " ++ "=" ++ "") (by decide)) hargs h
  | aliasFor =>
    exact pairOf_law law hsub .aliasFor (law.literal ("alias " ++ "='" ++ "'") (by decide)) hargs h
  | concat => exact concat_law law hsub hargs h
  | quoted => exact wrapped_law law hsub _ (law.literal ("\"" ++ "\"") (by decide)) hargs h
  | println => exact command_law law hsub (law.literal "echo" (by decide)) hargs h
  | print => exact command_law law hsub (law.literal "echo -n" (by decide)) hargs h
  | returnFrom => exact returnFrom_law law hsub hargs h
  | setVar => exact setVar_law law hsub hargs h
  | newObject => exact newObject_law law hsub hargs h
  | arrayGet =>
    exact pairOf_law law hsub .arrayGet (law.literal ("$\x7b" ++ "[" ++ "]\x7d") (by decide)) hargs h
  | arraySet => exact arraySet_law law hsub hargs h
  | hashGet => exact hashGet_law law hsub hlist hargs h
  | hashMerge => exact hashMerge_law law hsub hlist hargs h
  | hashSet => exact hashSet_law law hsub hlist hargs h
  | deref => exact deref_law law hsub hargs h
  | block => exact statements_law law hsub hargs h
  | group => exact groupOf_law law hsub hargs h
  | pipe => exact joined_law law hsub hargs (law.literal " | " (by decide)) h
  | chainOr => exact joined_law law hsub hargs (law.literal " || " (by decide)) h
  | chainAnd => exact joined_law law hsub hargs (law.literal " && " (by decide)) h
  | apply => exact apply_law law hsub hlist h
  | function => exact function_law law hsub hargs h
  | negate => exact wrapped_law law hsub _ (law.literal ("! " ++ "") (by decide)) hargs h
  | predicate p =>
    have hp := Construct.predicate_mem_of_named hc
    exact wrapped_law law hsub _ (flag_law law hp) hargs h

theorem headed_law {name : String} {args : List Form} (hlist : C (.list (.symbol name :: args)))
    {s : String} (h : headed sub name args = .ok s) : P s := by
  have hitems := law.items _ hlist
  have hargs : ∀ f ∈ args, C f := fun f hf => hitems f (List.mem_cons_of_mem _ hf)
  unfold headed at h
  split at h
  · next c hc => exact construct_law law hsub hc hlist h
  · split at h
    · next op hop => exact operation_law law hsub (Operator.mem_of_named hop) hargs h
    · split at h
      · next method hmethod =>
        exact methodCall_law law hsub (law.method name method (hitems _ (by simp)) hmethod) hargs h
      · exact words_law law hsub hitems h

end

theorem atom_law {f : Form} (hf : C f) (hlist : ∀ fs, f ≠ .list fs) (hvector : ∀ fs, f ≠ .vector fs)
    (hmap : ∀ es, f ≠ .map es) {s : String} (h : atom f = .ok s) : P s := by
  cases f with
  | nil =>
    obtain rfl := Except.ok.inj h
    exact law.literal "null" (by decide)
  | int n =>
    obtain rfl := Except.ok.inj h
    exact intText_law law n
  | ratio n d => exact ratio_law law h
  | str t =>
    obtain rfl := Except.ok.inj h
    exact law.text _ hf t (List.mem_singleton_self t)
  | keyword name =>
    obtain rfl := Except.ok.inj h
    exact law.text _ hf name (List.mem_singleton_self name)
  | symbol name =>
    obtain rfl := Except.ok.inj h
    exact law.text _ hf name (List.mem_singleton_self name)
  | splice =>
    obtain rfl := Except.ok.inj h
    exact law.empty
  | list fs => exact absurd rfl (hlist fs)
  | vector fs => exact absurd rfl (hvector fs)
  | map es => exact absurd rfl (hmap es)

/-- One level of rendering keeps the property. -/
theorem layout_law (origin : Origin) (hsub : Keeps C P sub) :
    Keeps C P (layout ⟨Extension.none, origin⟩ sub) := by
  intro f s hf h
  unfold layout at h
  split at h
  · obtain rfl := Except.ok.inj h
    exact law.empty
  · exact headed_law law hsub hf h
  · -- without extension nothing is resolved
    obtain rfl := Except.ok.inj h
    exact law.empty
  · exact words_law law hsub (law.items _ hf) h
  · next items =>
    obtain ⟨w, hw, rfl⟩ : ∃ w, words sub items = .ok w ∧ "(" ++ w ++ ")" = s := by simpa using h
    exact law.insert "(" ")" w (law.literal ("(" ++ ")") (by decide))
      (words_law law hsub (law.elements _ hf) hw)
  · exact initialiser_law law hsub (law.entries _ hf) h
  · next hlist hvector hmap => exact atom_law law hf hlist hvector hmap h

/-! ## Rendering -/

theorem emitWithin_law (origin : Origin) (n : Nat) :
    Keeps C P (emitWithin ⟨Extension.none, origin⟩ n) := by
  induction n with
  | zero =>
    intro f s _ h
    obtain rfl := Except.ok.inj h
    exact law.empty
  | succ n ih => exact layout_law law origin ih

theorem emit_law (origin : Origin) : Keeps C P (emit ⟨Extension.none, origin⟩) :=
  fun f => emitWithin_law law origin f.size f

/-- Forms of the class render to texts with the property. -/
theorem render_law (origin : Origin) {fs : List Form} (hfs : ∀ f ∈ fs, C f) {s : String}
    (h : render ⟨Extension.none, origin⟩ fs = .ok s) : P s := by
  unfold render at h
  rw [mapError_eq_ok] at h
  split at h
  · next f => exact emit_law law origin f s (hfs f (by simp)) h
  · exact statements_law law (emit_law law origin) hfs h

end ScriptTree.Render
