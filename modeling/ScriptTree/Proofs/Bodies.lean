/-
  The bodies of compound commands.

  The shell takes no compound command with an empty body, and a body of nothing but white
  characters and semicolons is empty to it.  The constructs that render to compound commands print
  their bodies in three ways: a branch of `if` stands on the line of its keyword or on lines of its
  own, the statements of `when` are replaced by a command that does nothing if they are blank, and
  the statements of a loop are printed as they are.

  1. `Compound` lists the compound commands with what opens them and with their bodies, and
     `Compound.laidOut` says that their text is put together from these.
  2. Each way of printing a body keeps the substance of what is printed, but for the command that
     stands for blank statements (`Body.filled_iff`).
  3. So a body has something in it iff one of its forms has, or it is the body of a `when` and all
     are blank.  Whether they have is a matter of the tree alone.
-/
import Mathlib.Data.List.Forall2
import ScriptTree.Proofs.Conditions
import ScriptTree.Proofs.Substance

namespace ScriptTree

/-- There is something in a text that is more than white and more than a semicolon. -/
def Text.Filled (s : String) : Prop :=
  ∃ c ∈ s.toList, isWhite c = false ∧ c ≠ ';'

/-! ## Bodies -/

/-- A body of a compound command. -/
inductive Body where
  /-- A branch of `if`. -/
  | branch (form : Form)
  /-- The statements of `when`. -/
  | guarded (forms : List Form)
  /-- The statements of a loop. -/
  | repeated (forms : List Form)

namespace Body

open Render

/-- The text of a body, from the word that opens it to the word that closes it. -/
def text : Body → Rendering
  | .branch form => Render.branch (emit .plain) form
  | .guarded forms => return "\n" ++ bodyOr (← statements (emit .plain) forms) ++ "\n"
  | .repeated forms => return "\n" ++ (← statements (emit .plain) forms)

/-- How much there is to a body: the most that there is to one of its forms, except that blank
    statements of `when` are replaced. -/
def substance : Body → Substance
  | .branch form => form.substance
  | .guarded forms =>
    match Substance.joinAll (forms.map Form.substance) with
    | .blank => .solid
    | s => s
  | .repeated forms => Substance.joinAll (forms.map Form.substance)

theorem branch_solid_iff {form : Form} {s : String}
    (h : Render.branch (emit .plain) form = .ok s) :
    Text.substance s = .solid ↔ form.substance = .solid := by
  obtain ⟨inner, hinner, hs⟩ := bind_eq_ok.mp h
  rw [← emit_weighs form inner hinner]
  split at hs
  · rw [← pure_eq_ok.mp hs]
    simp [show Text.substance "\n" = .blank from rfl]
  · rw [← pure_eq_ok.mp hs]
    simp [show Text.substance " " = .blank from rfl, show Text.substance ";" = .idle from rfl,
      Substance.join_eq_solid]

theorem substance_bodyOr (s : String) : Text.substance (bodyOr s) =
    match Text.substance s with
    | .blank => .solid
    | w => w := by
  unfold bodyOr
  split
  · next h =>
    rw [← Text.substance_trim s, h]
    rfl
  · next h =>
    have hne : Text.substance s ≠ .blank := fun hblank =>
      h (Text.trim_eq_empty_iff.mpr (Text.substance_eq_blank.mp hblank))
    rw [Text.substance_trim]
    split
    · next hblank => exact absurd hblank hne
    · rfl

/-- A body has something in it iff there is that much to it. -/
theorem filled_iff {b : Body} {s : String} (h : b.text = .ok s) :
    Text.Filled s ↔ b.substance = .solid := by
  rw [Text.Filled, ← Text.substance_eq_solid]
  cases b with
  | branch form => exact branch_solid_iff h
  | guarded forms =>
    obtain ⟨inner, hinner, rfl⟩ : ∃ inner, statements (emit .plain) forms = .ok inner ∧
        "\n" ++ bodyOr inner ++ "\n" = s := by simpa [text] using h
    rw [substance, ← statements_weighs (fun f _ => emit_weighs f) inner hinner,
      ← substance_bodyOr]
    simp [show Text.substance "\n" = .blank from rfl]
  | repeated forms =>
    obtain ⟨inner, hinner, rfl⟩ : ∃ inner, statements (emit .plain) forms = .ok inner ∧
        "\n" ++ inner = s := by simpa [text] using h
    rw [substance, ← statements_weighs (fun f _ => emit_weighs f) inner hinner]
    simp [show Text.substance "\n" = .blank from rfl]

end Body

/-! ## Compound commands -/

namespace Render

/-- A compound command: the text before the word that opens its first body, that word, and its
    bodies with the words that close them. -/
inductive Compound : Form → Rendering → String → List (Body × String) → Prop
  | ifElse (test yes : Form) : Compound (.call "if" [test, yes])
      (return "if " ++ (← condition (emit .plain) test) ++ "; ") "then" [(.branch yes, "fi")]
  | ifElseWith (test yes no : Form) : Compound (.call "if" [test, yes, no])
      (return "if " ++ (← condition (emit .plain) test) ++ "; ") "then"
      [(.branch yes, "else"), (.branch no, "fi")]
  | ifNot (test yes : Form) : Compound (.call "if-not" [test, yes])
      (return "if " ++ (← negatedCondition (emit .plain) test) ++ "; ") "then"
      [(.branch yes, "fi")]
  | ifNotWith (test yes no : Form) : Compound (.call "if-not" [test, yes, no])
      (return "if " ++ (← negatedCondition (emit .plain) test) ++ "; ") "then"
      [(.branch yes, "else"), (.branch no, "fi")]
  | whenTrue (test : Form) (forms : List Form) : Compound (.call "when" (test :: forms))
      (return "if " ++ (← condition (emit .plain) test) ++ "; ") "then" [(.guarded forms, "fi")]
  | whileTrue (test : Form) (forms : List Form) : Compound (.call "while" (test :: forms))
      (return "while " ++ (← condition (emit .plain) test) ++ "; ") "do"
      [(.repeated forms, "done")]
  | forEach (item values : Form) (forms : List Form) :
      Compound (.call "doseq" (.vector [item, values] :: forms))
      (do
        let values ← loopValues (emit .plain) values
        return "for " ++ (← emit .plain item) ++ " in " ++ values ++ "; ") "do"
      [(.repeated forms, "done")]

theorem emit_forEach (cx : Setting) (args : List Form) :
    emit cx (.call "doseq" args) = forEach (emit cx) args := by
  rw [emit_eq]
  rfl

/-- The bodies of a compound command in a row, each with the word that closes it. -/
def closed (bodies : List (Body × String)) (texts : List String) : String :=
  String.join (List.zipWith (fun b t => t ++ b.2) bodies texts)

/-- The text is put together from what comes before the bodies and from the bodies. -/
def LaidOut (head : Rendering) (opening : String) (bodies : List (Body × String))
    (text : String) : Prop :=
  ∃ before texts, head = .ok before ∧ List.Forall₂ (fun b t => b.1.text = .ok t) bodies texts ∧
    text = before ++ opening ++ closed bodies texts

theorem laidOut_conditional {c : Construct} {judge : Form → Rendering} {test yes : Form}
    {text : String} (h : conditional (emit .plain) c judge [test, yes] = .ok text) :
    LaidOut (return "if " ++ (← judge test) ++ "; ") "then" [(.branch yes, "fi")] text := by
  obtain ⟨cond, hcond, body, hbody, rfl⟩ : ∃ cond, judge test = .ok cond ∧
      ∃ body, branch (emit .plain) yes = .ok body ∧
        "if " ++ cond ++ "; then" ++ body ++ "fi" = text := by
    simpa only [conditional, bind_eq_ok, pure_eq_ok] using h
  refine ⟨"if " ++ cond ++ "; ", [body], by rw [hcond]; rfl, .cons hbody .nil, ?_⟩
  simp [closed, String.append_assoc]

theorem laidOut_conditional_else {c : Construct} {judge : Form → Rendering} {test yes no : Form}
    {text : String} (h : conditional (emit .plain) c judge [test, yes, no] = .ok text) :
    LaidOut (return "if " ++ (← judge test) ++ "; ") "then"
      [(.branch yes, "else"), (.branch no, "fi")] text := by
  obtain ⟨cond, hcond, first, hfirst, second, hsecond, rfl⟩ : ∃ cond, judge test = .ok cond ∧
      ∃ first, branch (emit .plain) yes = .ok first ∧
        ∃ second, branch (emit .plain) no = .ok second ∧
          "if " ++ cond ++ "; then" ++ first ++ "else" ++ second ++ "fi" = text := by
    simpa only [conditional, bind_eq_ok, pure_eq_ok] using h
  refine ⟨"if " ++ cond ++ "; ", [first, second], by rw [hcond]; rfl,
    .cons hfirst (.cons hsecond .nil), ?_⟩
  simp [closed, String.append_assoc]

theorem Compound.laidOut {f : Form} {head : Rendering} {opening : String}
    {bodies : List (Body × String)} (hf : Compound f head opening bodies) {text : String}
    (h : emit .plain f = .ok text) : LaidOut head opening bodies text := by
  cases hf with
  | ifElse test yes => exact laidOut_conditional (emit_ifElse .plain _ ▸ h)
  | ifElseWith test yes no => exact laidOut_conditional_else (emit_ifElse .plain _ ▸ h)
  | ifNot test yes => exact laidOut_conditional (emit_ifNot .plain _ ▸ h)
  | ifNotWith test yes no => exact laidOut_conditional_else (emit_ifNot .plain _ ▸ h)
  | whenTrue test forms =>
    rw [emit_whenTrue] at h
    obtain ⟨inner, hinner, cond, hcond, rfl⟩ : ∃ inner, statements (emit .plain) forms = .ok inner ∧
        ∃ cond, condition (emit .plain) test = .ok cond ∧
          "if " ++ cond ++ "; then\n" ++ bodyOr inner ++ "\nfi" = text := by
      simpa only [Render.whenTrue, bind_eq_ok, pure_eq_ok] using h
    refine ⟨"if " ++ cond ++ "; ", ["\n" ++ bodyOr inner ++ "\n"], by rw [hcond]; rfl,
      .cons (by rw [Body.text, hinner]; rfl) .nil, ?_⟩
    rw [← String.toList_inj]
    simp [closed]
  | whileTrue test forms =>
    rw [emit_whileTrue] at h
    obtain ⟨cond, hcond, inner, hinner, rfl⟩ : ∃ cond, condition (emit .plain) test = .ok cond ∧
        ∃ inner, statements (emit .plain) forms = .ok inner ∧
          "while " ++ cond ++ "; do\n" ++ inner ++ "done" = text := by
      simpa only [Render.whileTrue, bind_eq_ok, pure_eq_ok] using h
    refine ⟨"while " ++ cond ++ "; ", ["\n" ++ inner], by rw [hcond]; rfl,
      .cons (by rw [Body.text, hinner]; rfl) .nil, ?_⟩
    rw [← String.toList_inj]
    simp [closed]
  | forEach item values forms =>
    rw [emit_forEach] at h
    obtain ⟨vs, hvs, name, hname, inner, hinner, rfl⟩ :
        ∃ vs, loopValues (emit .plain) values = .ok vs ∧ ∃ name, emit .plain item = .ok name ∧
          ∃ inner, statements (emit .plain) forms = .ok inner ∧
            "for " ++ name ++ " in " ++ vs ++ "; do\n" ++ inner ++ "done" = text := by
      simpa only [Render.forEach, bind_eq_ok, pure_eq_ok] using h
    refine ⟨"for " ++ name ++ " in " ++ vs ++ "; ", ["\n" ++ inner],
      by rw [hvs, hname]; rfl, .cons (by rw [Body.text, hinner]; rfl) .nil, ?_⟩
    rw [← String.toList_inj]
    simp [closed]

/-- A list headed by the name of a compound command is one if it has a text. -/
theorem exists_compound {name : String} (hname : name ∈ ["if", "if-not", "when", "while", "doseq"])
    {args : List Form} {text : String} (h : emit .plain (.call name args) = .ok text) :
    ∃ head opening bodies, Compound (.call name args) head opening bodies := by
  simp only [List.mem_cons, List.not_mem_nil, or_false] at hname
  rcases hname with rfl | rfl | rfl | rfl | rfl
  · rw [emit_ifElse] at h
    unfold conditional at h
    split at h
    · exact ⟨_, _, _, .ifElse _ _⟩
    · exact ⟨_, _, _, .ifElseWith _ _ _⟩
    · exact absurd h (badCount_ne_ok _ _ _)
  · rw [emit_ifNot] at h
    unfold conditional at h
    split at h
    · exact ⟨_, _, _, .ifNot _ _⟩
    · exact ⟨_, _, _, .ifNotWith _ _ _⟩
    · exact absurd h (badCount_ne_ok _ _ _)
  · rw [emit_whenTrue] at h
    cases args with
    | nil => exact absurd h (badCount_ne_ok _ _ _)
    | cons test forms => exact ⟨_, _, _, .whenTrue test forms⟩
  · rw [emit_whileTrue] at h
    cases args with
    | nil => exact absurd h (badCount_ne_ok _ _ _)
    | cons test forms => exact ⟨_, _, _, .whileTrue test forms⟩
  · rw [emit_forEach] at h
    unfold forEach at h
    split at h
    · exact ⟨_, _, _, .forEach _ _ _⟩
    · exact absurd h (misuse_ne_ok _ _)

theorem forall_filled_iff {bodies : List (Body × String)} {texts : List String}
    (h : List.Forall₂ (fun b t => b.1.text = .ok t) bodies texts) :
    (∀ t ∈ texts, Text.Filled t) ↔ ∀ b ∈ bodies, b.1.substance = .solid := by
  induction h with
  | nil => simp
  | cons hb _ ih => rw [List.forall_mem_cons, List.forall_mem_cons, Body.filled_iff hb, ih]

/-- Every list headed by the name of a compound command that has a text is one, and its text is what
    comes before the bodies and then the bodies.  A body has a character in it that is neither white
    nor a semicolon iff it is solid, which is a matter of its forms: one of them is solid, or all
    are blank and the body is that of a `when`. -/
theorem render_bodies (origin : Origin) (name : String) (args : List Form) (text : String)
    (hname : name ∈ ["if", "if-not", "when", "while", "doseq"])
    (h : render ⟨Extension.none, origin⟩ [.call name args] = .ok text) :
    (∃ head opening bodies, Compound (.call name args) head opening bodies) ∧
    ∀ head opening bodies, Compound (.call name args) head opening bodies →
      ∃ before texts, head = .ok before ∧ text = before ++ opening ++ closed bodies texts ∧
        List.Forall₂ (fun b t => b.1.text = .ok t ∧ (Text.Filled t ↔ b.1.substance = .solid))
          bodies texts ∧
        ((∀ t ∈ texts, Text.Filled t) ↔ ∀ b ∈ bodies, b.1.substance = .solid) := by
  have hemit : emit .plain (.call name args) = .ok text :=
    mapError_eq_ok.mp (render_none Origin.unknown h)
  refine ⟨exists_compound hname hemit, ?_⟩
  intro head opening bodies hcompound
  obtain ⟨before, texts, hbefore, htexts, htext⟩ := hcompound.laidOut hemit
  refine ⟨before, texts, hbefore, htext, ?_, forall_filled_iff htexts⟩
  exact htexts.imp fun b t hb => ⟨hb, Body.filled_iff hb⟩

/-- A loop without statements, and a `when` with blank ones. -/
theorem render_bodies_empty :
    let loop := [Form.symbol "true"]
    let guard := [Form.symbol "true", .call "do" [.splice, .str ""]]
    render Setting.plain [.call "while" loop] = .ok "while true; do\ndone" ∧
    (∃ texts, "while true; do\ndone" = "while true; do" ++ closed [(.repeated [], "done")] texts ∧
      ¬∀ t ∈ texts, Text.Filled t) ∧
    render Setting.plain [.call "when" guard] = .ok "if true; then\n:\nfi" ∧
    ∃ texts,
      "if true; then\n:\nfi" = "if true; then" ++ closed [(.guarded guard.tail, "fi")] texts ∧
      ∀ t ∈ texts, Text.Filled t := by
  intro loop guard
  have hloop : render Setting.plain [.call "while" loop] = .ok "while true; do\ndone" :=
    eq_ok_of_toOption (by decide +kernel)
  have hguard : render Setting.plain [.call "when" guard] = .ok "if true; then\n:\nfi" :=
    eq_ok_of_toOption (by decide +kernel)
  have htest : condition (emit .plain) (.symbol "true") = .ok "true" :=
    eq_ok_of_toOption (by decide +kernel)
  refine ⟨hloop, ?_, hguard, ?_⟩
  · obtain ⟨before, texts, hbefore, htext, -, hall⟩ :=
      (render_bodies Origin.unknown "while" loop _ (by decide) hloop).2 _ _ _ (.whileTrue _ _)
    rw [htest] at hbefore
    obtain rfl := Except.ok.inj hbefore
    refine ⟨texts, htext, fun hfilled => ?_⟩
    exact absurd (hall.mp hfilled (.repeated [], "done") (by simp)) (by decide)
  · obtain ⟨before, texts, hbefore, htext, -, hall⟩ :=
      (render_bodies Origin.unknown "when" guard _ (by decide) hguard).2 _ _ _ (.whenTrue _ _)
    rw [htest] at hbefore
    obtain rfl := Except.ok.inj hbefore
    refine ⟨texts, htext, hall.mpr ?_⟩
    simpa [guard] using (by decide +kernel : (Body.guarded guard.tail).substance = .solid)

end Render

end ScriptTree
