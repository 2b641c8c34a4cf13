/-
  What a run leaves behind.

  1. The document.  A request reads its input, or the standard input, and gets a text if there is a
     file and its content is UTF-8 (`Request.Gives`).  `Request.Unreadable` lists what can be in the
     way: no such file, a directory, no text; one of them is, iff no text is given
     (`unreadable_iff`).

  2. The course of a run.  Reading, decoding, compiling and writing can each end it, and what is
     done with a script depends on the request.  `Course` lists the eight ways with what each leaves
     behind; a run goes one of them (`run_course`) and no other (`Course.eq_run`).  Everything below
     is a case analysis over `Course`, and nothing below opens `run`.

  3. Main statement (`run_effects`): only a run that ends well and has a script to save changes the
     files, the exit code tells why a run fails, and a check ends as the run it stands for.  The
     last part needs that the request was accepted: a check that also asks for a file to write would
     not see that the file cannot be written.
-/
import ScriptTree.CommandLine.Run
import ScriptTree.Proofs.Paths

namespace ScriptTree.CommandLine

open Render

/-! ## The document -/

theorem fromUTF8?_eq_some {bytes : ByteArray} {text : String} :
    String.fromUTF8? bytes = some text ↔ bytes = text.toUTF8 := by
  unfold String.fromUTF8?
  constructor
  · intro h
    split at h
    · cases h
      rfl
    · exact nomatch h
  · rintro rfl
    exact dif_pos text.isValidUTF8

namespace Request

/-- The document as text: what the input holds, or else what comes in on the standard input. -/
def Gives (r : Request) (stdin : ByteArray) (fs : Files) (text : String) : Prop :=
  match r.input with
  | some path => fs.Holds path text.toUTF8
  | none => stdin = text.toUTF8

/-- The document cannot be read, or is no text. -/
inductive Unreadable (r : Request) (stdin : ByteArray) (fs : Files) : Prop
  | nowhere {path : String} (hin : r.input = some path) (h : ∀ spot, ¬fs.Leads path spot)
  | missing {path : String} {spot : List String} (hin : r.input = some path)
      (hleads : fs.Leads path spot) (h : fs.get? spot = none)
  | directory {path : String} {spot : List String} (hin : r.input = some path)
      (hleads : fs.Leads path spot) (h : fs.get? spot = some .directory)
  | notText {path : String} {spot : List String} {content : ByteArray} {mode : Mode}
      (hin : r.input = some path) (hleads : fs.Leads path spot)
      (h : fs.get? spot = some (.file content mode)) (hcontent : ¬content.IsValidUTF8)
  | stdinNotText (hin : r.input = none) (h : ¬stdin.IsValidUTF8)

variable {r : Request} {stdin : ByteArray} {fs : Files} {text : String}

theorem text_eq_ok : r.text (source r stdin fs) = .ok text ↔ r.Gives stdin fs text := by
  have htext : r.text (source r stdin fs) = .ok text ↔ source r stdin fs = .ok text.toUTF8 := by
    cases source r stdin fs with
    | error reason => simp [Request.text]
    | ok bytes =>
      rw [Except.ok.injEq, ← fromUTF8?_eq_some, Request.text]
      cases String.fromUTF8? bytes <;> simp
  rw [htext, source, Gives]
  cases r.input with
  | none => exact iff_of_eq (Except.ok.injEq stdin text.toUTF8)
  | some path => exact Files.read_eq_ok

theorem Gives.of_path {path : String} (h : r.Gives stdin fs text) (hin : r.input = some path) :
    fs.Holds path text.toUTF8 := by
  rw [Gives, hin] at h
  exact h

theorem Unreadable.not_gives (h : r.Unreadable stdin fs) : ¬r.Gives stdin fs text := by
  intro hgives
  cases h with
  | nowhere hin h =>
    obtain ⟨spot, _, hleads, _⟩ := hgives.of_path hin
    exact h spot hleads
  | missing hin hleads h | directory hin hleads h =>
    obtain ⟨spot, _, hleads', hget⟩ := hgives.of_path hin
    rw [hleads'.unique hleads, h] at hget
    exact nomatch hget
  | notText hin hleads h hcontent =>
    obtain ⟨spot, _, hleads', hget⟩ := hgives.of_path hin
    rw [hleads'.unique hleads, h] at hget
    cases hget
    exact hcontent text.isValidUTF8
  | stdinNotText hin h =>
    rw [Gives, hin] at hgives
    exact h (hgives ▸ text.isValidUTF8)

/-- A document is unreadable iff there is no text that it gives. -/
theorem unreadable_iff : r.Unreadable stdin fs ↔ ∀ text, ¬r.Gives stdin fs text := by
  refine ⟨fun h _ => h.not_gives, fun h => ?_⟩
  cases hin : r.input with
  | none =>
    refine .stdinNotText hin fun hvalid => h ⟨stdin, hvalid⟩ ?_
    rw [Gives, hin]
    rfl
  | some path =>
    by_cases hleads : ∃ spot, fs.Leads path spot
    · obtain ⟨spot, hleads⟩ := hleads
      cases hget : fs.get? spot with
      | none => exact .missing hin hleads hget
      | some e =>
        cases e with
        | directory => exact .directory hin hleads hget
        | file content mode =>
          refine .notText hin hleads hget fun hvalid => h ⟨content, hvalid⟩ ?_
          rw [Gives, hin]
          exact ⟨spot, mode, hleads, hget⟩
    · exact .nowhere hin fun spot hspot => hleads ⟨spot, hspot⟩

theorem code_readFailure (r : Request) (reason : Reason) : (r.readFailure reason).code = 1 := by
  rw [readFailure]
  cases r.input <;> rfl

theorem code_of_text_eq_error {source : Except Reason ByteArray} {f : Failure}
    (h : r.text source = .error f) : f.code = 1 := by
  unfold Request.text at h
  split at h
  · cases h
    exact r.code_readFailure _
  · split at h
    · exact nomatch h
    · cases h
      exact r.code_readFailure _

theorem text_eq_error : (∃ f, r.text (source r stdin fs) = .error f) ↔ r.Unreadable stdin fs := by
  rw [unreadable_iff]
  constructor
  · rintro ⟨f, h⟩ text hgives
    rw [text_eq_ok.mpr hgives] at h
    exact nomatch h
  · intro h
    cases htext : r.text (source r stdin fs) with
    | error f => exact ⟨f, rfl⟩
    | ok text => exact absurd (text_eq_ok.mp htext) (h text)

end Request

/-! ## Accepted requests -/

theorem readInputs_eq_request {d : Draft} {args : List String} {r : Request}
    (h : readInputs d args = .request r) : ∃ d' : Draft, d'.finish = .request r := by
  induction args generalizing d with
  | nil => exact ⟨d, h⟩
  | cons arg rest ih =>
    rw [readInputs] at h
    split at h
    · exact ih h
    · exact nomatch h

/-- An accepted request is the end of a draft. -/
theorem readArguments_eq_request {d : Draft} {args : List String} {r : Request}
    (h : readArguments d args = .request r) : ∃ d' : Draft, d'.finish = .request r := by
  -- an argument goes on with the next ones, or ends in a refusal or an answer without a request
  fun_induction readArguments d args <;> grind [readInputs_eq_request]

/-- A check is accepted only without a file to write and without an outline to print. -/
theorem alone_of_check {args : List String} {r : Request} (h : read args = .request r)
    (hcheck : r.check = true) : r.out = none ∧ r.outline = false := by
  obtain ⟨d, hd⟩ := readArguments_eq_request h
  unfold Draft.finish at hd
  split at hd
  · exact nomatch hd
  · next hrefused =>
    split at hd
    · exact nomatch hd
    · cases hd
      have hd : d.check = true → d.out = none ∧ d.outline = false := by simpa using hrefused
      exact hd hcheck

/-! ## The course of a run -/

/-- The ways in which a run can go, each with what it leaves behind. -/
inductive Course (r : Request) (stdin : ByteArray) (fs : Files) : Outcome → Prop
  | unread {f : Failure} (h : r.text (source r stdin fs) = .error f) :
      Course r stdin fs (failed fs f)
  | undecoded {text : String} {e : Fault} (htext : r.Gives stdin fs text)
      (houtline : r.outline = true) (h : Document.parse text = .error e) :
      Course r stdin fs (failed fs (.fault e))
  | outlined {text : String} {forms : List Form} (htext : r.Gives stdin fs text)
      (houtline : r.outline = true) (h : Document.parse text = .ok forms) :
      Course r stdin fs ⟨0, Form.outlineText forms ++ "\n", "", fs⟩
  | uncompiled {text : String} {e : Fault} (htext : r.Gives stdin fs text)
      (houtline : r.outline = false) (h : Script.compileText r.options text = .error e) :
      Course r stdin fs (failed fs (.fault e))
  | checked {text script : String} (htext : r.Gives stdin fs text)
      (houtline : r.outline = false) (h : Script.compileText r.options text = .ok script)
      (hcheck : r.check = true) : Course r stdin fs ⟨0, "OK\n", "", fs⟩
  | printed {text script : String} (htext : r.Gives stdin fs text)
      (houtline : r.outline = false) (h : Script.compileText r.options text = .ok script)
      (hcheck : r.check = false) (hout : r.out = none) : Course r stdin fs ⟨0, script, "", fs⟩
  | saved {text script path : String} {fs' : Files}
      (htext : r.Gives stdin fs text) (houtline : r.outline = false)
      (h : Script.compileText r.options text = .ok script) (hcheck : r.check = false)
      (hout : r.out = some path)
      (hwrite : fs.write path script.toUTF8 (!r.keepMode) = .ok fs') :
      Course r stdin fs ⟨0, "", "", fs'⟩
  | unsaved {text script path : String} {reason : Reason}
      (htext : r.Gives stdin fs text) (houtline : r.outline = false)
      (h : Script.compileText r.options text = .ok script) (hcheck : r.check = false)
      (hout : r.out = some path)
      (hwrite : fs.write path script.toUTF8 (!r.keepMode) = .error reason) :
      Course r stdin fs (failed fs (.unwritable path reason))

section

variable {r : Request} {stdin : ByteArray} {fs : Files} {text script : String}

theorem run_outline (htext : r.Gives stdin fs text) (houtline : r.outline = true) :
    run r stdin fs = match Document.parse text with
      | .error e => failed fs (.fault e)
      | .ok forms => ⟨0, Form.outlineText forms ++ "\n", "", fs⟩ := by
  rw [run, Request.plan, Request.text_eq_ok.mpr htext]
  simp only [houtline, if_true, bind, Except.bind]
  cases Document.parse text <;> rfl

theorem run_compile (htext : r.Gives stdin fs text) (houtline : r.outline = false) :
    run r stdin fs = match Script.compileText r.options text with
      | .error e => failed fs (.fault e)
      | .ok script => perform fs (r.planScript script) := by
  rw [run, Request.plan, Request.text_eq_ok.mpr htext]
  simp only [houtline, Bool.false_eq_true, if_false, bind, Except.bind]
  cases Script.compileText r.options text <;> rfl

theorem Request.planScript_check (hcheck : r.check = true) :
    r.planScript script = .print "OK\n" := by
  rw [planScript, if_pos hcheck]

theorem Request.planScript_print (hcheck : r.check = false) (hout : r.out = none) :
    r.planScript script = .print script := by
  rw [planScript, if_neg (by simp [hcheck]), hout]

theorem Request.planScript_save {path : String} (hcheck : r.check = false)
    (hout : r.out = some path) : r.planScript script = .save path script (!r.keepMode) := by
  rw [planScript, if_neg (by simp [hcheck]), hout]

end

namespace Course

variable {r : Request} {stdin : ByteArray} {fs : Files} {o : Outcome}

/-- A run goes no other way than the one it meets the conditions of. -/
theorem eq_run (h : Course r stdin fs o) : run r stdin fs = o := by
  cases h with
  | unread h =>
    rw [run, Request.plan, h]
    rfl
  | undecoded htext houtline h => rw [run_outline htext houtline, h]
  | outlined htext houtline h => rw [run_outline htext houtline, h]
  | uncompiled htext houtline h => rw [run_compile htext houtline, h]
  | checked htext houtline h hcheck =>
    simp only [run_compile htext houtline, h, Request.planScript_check hcheck, perform]
  | printed htext houtline h hcheck hout =>
    simp only [run_compile htext houtline, h, Request.planScript_print hcheck hout, perform]
  | saved htext houtline h hcheck hout hwrite =>
    simp only [run_compile htext houtline, h, Request.planScript_save hcheck hout, perform, hwrite]
  | unsaved htext houtline h hcheck hout hwrite =>
    simp only [run_compile htext houtline, h, Request.planScript_save hcheck hout, perform, hwrite]

end Course

/-- The conditions leave nothing out: every run goes one of these ways. -/
theorem run_course (r : Request) (stdin : ByteArray) (fs : Files) :
    Course r stdin fs (run r stdin fs) := by
  obtain ⟨o, hcourse⟩ : ∃ o, Course r stdin fs o := by
    cases htext : r.text (source r stdin fs) with
    | error f => exact ⟨_, .unread htext⟩
    | ok text =>
      replace htext := Request.text_eq_ok.mp htext
      cases houtline : r.outline with
      | true =>
        cases h : Document.parse text with
        | error e => exact ⟨_, .undecoded htext houtline h⟩
        | ok forms => exact ⟨_, .outlined htext houtline h⟩
      | false =>
        cases h : Script.compileText r.options text with
        | error e => exact ⟨_, .uncompiled htext houtline h⟩
        | ok script =>
          cases hcheck : r.check with
          | true => exact ⟨_, .checked htext houtline h hcheck⟩
          | false =>
            cases hout : r.out with
            | none => exact ⟨_, .printed htext houtline h hcheck hout⟩
            | some path =>
              cases hwrite : fs.write path script.toUTF8 (!r.keepMode) with
              | ok fs' => exact ⟨_, .saved htext houtline h hcheck hout hwrite⟩
              | error reason => exact ⟨_, .unsaved htext houtline h hcheck hout hwrite⟩
  rw [hcourse.eq_run]
  exact hcourse

/-! ## Why a run fails -/

namespace Request

/-- The document is read, but cannot be decoded, or not compiled where it is to be. -/
def Faulty (r : Request) (stdin : ByteArray) (fs : Files) : Prop :=
  ∃ text e, r.Gives stdin fs text ∧
    (r.outline = true ∧ Document.parse text = .error e ∨
      r.outline = false ∧ Script.compileText r.options text = .error e)

/-- The script is made and to be saved, but its path leads nowhere or to a directory. -/
def Unwritable (r : Request) (stdin : ByteArray) (fs : Files) : Prop :=
  ∃ text script path, r.Gives stdin fs text ∧ r.outline = false ∧
    Script.compileText r.options text = .ok script ∧ r.check = false ∧ r.out = some path ∧
    ∀ spot, fs.Leads path spot → fs.get? spot = some .directory

end Request

/-! ## What the courses leave behind -/

section

variable {r : Request} {stdin : ByteArray} {fs : Files} {o : Outcome}

/-- The files change only when a script is saved. -/
theorem Course.changed (h : Course r stdin fs o) (hd : o.files ≠ fs) :
    o.code = 0 ∧ r.out ≠ none ∧ r.check = false ∧ r.outline = false := by
  cases h with
  | saved htext houtline h hcheck hout hwrite =>
    exact ⟨rfl, by simp [hout], hcheck, houtline⟩
  | _ => exact absurd rfl hd

/-- A run that ends well has read its document; if it is no outline that is asked for, it has
    compiled it too. -/
theorem Course.compiled (h : Course r stdin fs o) (hcode : o.code = 0)
    (houtline : r.outline = false) : ∃ text script, r.Gives stdin fs text ∧
      Script.compileText r.options text = .ok script := by
  cases h with
  | unread h =>
    have hone := Request.code_of_text_eq_error h
    exact absurd (hcode.symm.trans hone) (by decide)
  | undecoded _ houtline' _ | outlined _ houtline' _ => simp [houtline] at houtline'
  | checked htext _ h _ | printed htext _ h _ _ | saved htext _ h _ _ _ => exact ⟨_, _, htext, h⟩
  | uncompiled _ _ _ | unsaved _ _ _ _ _ _ => exact nomatch hcode

/-- Whatever fails leaves the files as they were and prints nothing. -/
theorem Course.failing (h : Course r stdin fs o) (hcode : o.code ≠ 0) :
    o.files = fs ∧ o.stdout = "" ∧
      (o.code = 1 ∧ (r.Unreadable stdin fs ∨ r.Unwritable stdin fs) ∨
        o.code = 2 ∧ r.Faulty stdin fs) := by
  cases h with
  | unread h =>
    have hone := Request.code_of_text_eq_error h
    exact ⟨rfl, rfl, .inl ⟨hone, .inl (Request.text_eq_error.mp ⟨_, h⟩)⟩⟩
  | undecoded htext houtline h =>
    exact ⟨rfl, rfl, .inr ⟨rfl, _, _, htext, .inl ⟨houtline, h⟩⟩⟩
  | uncompiled htext houtline h =>
    exact ⟨rfl, rfl, .inr ⟨rfl, _, _, htext, .inr ⟨houtline, h⟩⟩⟩
  | unsaved htext houtline h hcheck hout hwrite =>
    have hpath := Files.write_eq_error.mp ⟨_, hwrite⟩
    exact ⟨rfl, rfl, .inl ⟨rfl, .inr ⟨_, _, _, htext, houtline, h, hcheck, hout, hpath⟩⟩⟩
  | outlined | checked | printed | saved => exact absurd rfl hcode

theorem code_run_eq_one_iff :
    (run r stdin fs).code = 1 ↔ r.Unreadable stdin fs ∨ r.Unwritable stdin fs := by
  constructor
  · intro hcode
    rcases ((run_course r stdin fs).failing (by omega)).2.2 with ⟨_, h⟩ | ⟨htwo, _⟩
    · exact h
    · omega
  · rintro (h | ⟨text, script, path, htext, houtline, h, hcheck, hout, hpath⟩)
    · obtain ⟨f, h⟩ := Request.text_eq_error.mpr h
      rw [(Course.unread h).eq_run]
      exact Request.code_of_text_eq_error h
    · obtain ⟨reason, hwrite⟩ := Files.write_eq_error.mpr hpath
      rw [(Course.unsaved htext houtline h hcheck hout hwrite).eq_run]
      rfl

theorem code_run_eq_two_iff : (run r stdin fs).code = 2 ↔ r.Faulty stdin fs := by
  constructor
  · intro hcode
    rcases ((run_course r stdin fs).failing (by omega)).2.2 with ⟨hone, _⟩ | ⟨_, h⟩
    · omega
    · exact h
  · rintro ⟨text, e, htext, ⟨houtline, h⟩ | ⟨houtline, h⟩⟩
    · rw [(Course.undecoded htext houtline h).eq_run]
      rfl
    · rw [(Course.uncompiled htext houtline h).eq_run]
      rfl

/-- Where nothing is to be saved, all is well once the document compiles, checked or printed. -/
theorem code_run_eq_zero_iff (hout : r.out = none) (houtline : r.outline = false) :
    (run r stdin fs).code = 0 ↔ ∃ text script, r.Gives stdin fs text ∧
      Script.compileText r.options text = .ok script := by
  constructor
  · intro hcode
    exact (run_course r stdin fs).compiled hcode houtline
  · rintro ⟨text, script, htext, h⟩
    cases hcheck : r.check with
    | true => rw [(Course.checked htext houtline h hcheck).eq_run]
    | false => rw [(Course.printed htext houtline h hcheck hout).eq_run]

/-- A run that saves a script writes one file and prints nothing. -/
theorem Course.wrote (h : Course r stdin fs o) (hcode : o.code = 0) {path : String}
    (hout : r.out = some path) (hcheck : r.check = false) (houtline : r.outline = false) :
    o.stdout = "" ∧ ∃ text script spot mode, r.Gives stdin fs text ∧
      Script.compileText r.options text = .ok script ∧
      fs.Written path script.toUTF8 (!r.keepMode) o.files spot mode := by
  obtain ⟨text, script, htext, hscript⟩ := h.compiled hcode houtline
  cases hwrite : fs.write path script.toUTF8 (!r.keepMode) with
  | ok fs' =>
    obtain ⟨spot, mode, hwritten⟩ := Files.written_of_write hwrite
    rw [← h.eq_run, (Course.saved htext houtline hscript hcheck hout hwrite).eq_run]
    exact ⟨rfl, text, script, spot, mode, htext, hscript, hwritten⟩
  | error reason =>
    rw [← h.eq_run, (Course.unsaved htext houtline hscript hcheck hout hwrite).eq_run] at hcode
    exact nomatch hcode

end

/-! ## The main statement -/

/-- Files are touched only after a successful compilation.  A run changes the files only if it ends
    well and has a script to save; it then writes that one file and prints nothing.  A failing run
    changes and prints nothing; its code tells files that cannot be read or written from faults of
    the document.  A check ends well exactly when the run it stands for does. -/
theorem run_effects (args : List String) (r : Request) (hr : read args = .request r)
    (stdin : ByteArray) (fs : Files) :
    runWith args stdin fs = run r stdin fs ∧
    ((run r stdin fs).files ≠ fs →
      (run r stdin fs).code = 0 ∧ r.out ≠ none ∧ r.check = false ∧ r.outline = false) ∧
    (∀ path, (run r stdin fs).code = 0 → r.out = some path → r.check = false →
      r.outline = false →
      (run r stdin fs).stdout = "" ∧
      ∃ text script spot mode, r.Gives stdin fs text ∧
        Script.compileText r.options text = .ok script ∧
        fs.Written path script.toUTF8 (!r.keepMode) (run r stdin fs).files spot mode) ∧
    ((run r stdin fs).code ≠ 0 → (run r stdin fs).files = fs ∧ (run r stdin fs).stdout = "" ∧
      ((run r stdin fs).code = 1 ∨ (run r stdin fs).code = 2)) ∧
    ((run r stdin fs).code = 1 ↔ r.Unreadable stdin fs ∨ r.Unwritable stdin fs) ∧
    ((run r stdin fs).code = 2 ↔ r.Faulty stdin fs) ∧
    (r.check = true →
      ((run r stdin fs).code = 0 ↔ (run { r with check := false } stdin fs).code = 0)) := by
  have hcourse := run_course r stdin fs
  refine ⟨by rw [runWith, hr], hcourse.changed, fun path hcode hout hcheck houtline =>
    hcourse.wrote hcode hout hcheck houtline, ?_, code_run_eq_one_iff, code_run_eq_two_iff, ?_⟩
  · intro hcode
    obtain ⟨hd, hstdout, hcause⟩ := hcourse.failing hcode
    exact ⟨hd, hstdout, hcause.imp And.left And.left⟩
  · intro hcheck
    obtain ⟨hout, houtline⟩ := alone_of_check hr hcheck
    -- neither the text nor the compilation looks at whether this is a check
    have hplain : (run { r with check := false } stdin fs).code = 0 ↔ ∃ text script,
        r.Gives stdin fs text ∧ Script.compileText r.options text = .ok script :=
      code_run_eq_zero_iff hout houtline
    exact (code_run_eq_zero_iff hout houtline).trans hplain.symm

/-- Three runs on the same files.  A file of the working directory is written over and keeps its
    mode, a new file under an absolute path can be executed by all, and a run whose input is not
    there changes nothing. -/
theorem run_effects_three_runs :
    let fs : Files := ⟨[(["home"], .directory), (["tmp"], .directory),
      (["home", "s.sh"], .file "".toUTF8 (.ofNat 9 0o640))], ["home"], .ofNat 9 0o022⟩
    let stdin : ByteArray := "[\x7b\"sym\":\"ls\"\x7d]".toUTF8
    let keeping : Request := ⟨none, some "s.sh", false, .auto, none, false, false, true⟩
    let making : Request := ⟨none, some "/tmp/t.sh", true, .auto, none, false, false, false⟩
    let failing : Request :=
      ⟨some "../a.json", some "s.sh", false, .auto, none, false, false, false⟩
    (read ["-o", "s.sh", "--no-chmod-x"] = .request keeping ∧
      ∃ script, (run keeping stdin fs).files.get? ["home", "s.sh"] =
        some (.file script (.ofNat 9 0o640))) ∧
    (read ["--shebang", "-o", "/tmp/t.sh"] = .request making ∧
      ∃ script mode, (run making stdin fs).files.get? ["tmp", "t.sh"] = some (.file script mode) ∧
        mode &&& .ofNat 9 0o111 = .ofNat 9 0o111) ∧
    (read ["-os.sh", "../a.json"] = .request failing ∧ failing.Unreadable stdin fs ∧
      (run failing stdin fs).files = fs) := by
  intro fs stdin keeping making failing
  have hkeeping : read ["-o", "s.sh", "--no-chmod-x"] = .request keeping := by decide +kernel
  have hmaking : read ["--shebang", "-o", "/tmp/t.sh"] = .request making := by decide +kernel
  have hfailing : read ["-os.sh", "../a.json"] = .request failing := by decide +kernel
  refine ⟨⟨hkeeping, ?_⟩, ⟨hmaking, ?_⟩, hfailing, ?_⟩
  · have hcode : (run keeping stdin fs).code = 0 := by decide +kernel
    obtain ⟨-, text, script, spot, mode, -, -, hw⟩ :=
      (run_effects _ keeping hkeeping stdin fs).2.2.1 "s.sh" hcode rfl rfl rfl
    have hspot : fs.Leads "s.sh" ["home", "s.sh"] := Files.resolve_eq_ok.mp (by decide +kernel)
    cases hw.leads.unique hspot
    have hmode : mode = .ofNat 9 0o640 := hw.kept _ _ rfl
    exact ⟨script.toUTF8, hmode ▸ hw.file⟩
  · have hcode : (run making stdin fs).code = 0 := by decide +kernel
    obtain ⟨-, text, script, spot, mode, -, -, hw⟩ :=
      (run_effects _ making hmaking stdin fs).2.2.1 "/tmp/t.sh" hcode rfl rfl rfl
    have hspot : fs.Leads "/tmp/t.sh" ["tmp", "t.sh"] := Files.resolve_eq_ok.mp (by decide +kernel)
    cases hw.leads.unique hspot
    exact ⟨script.toUTF8, mode, hw.file, hw.made rfl⟩
  · have hleads : fs.Leads "../a.json" ["a.json"] := Files.resolve_eq_ok.mp (by decide +kernel)
    have hunreadable : failing.Unreadable stdin fs := .missing rfl hleads rfl
    obtain ⟨-, -, -, hfailed, hone, -⟩ := run_effects _ failing hfailing stdin fs
    have hcode : (run failing stdin fs).code = 1 := hone.mpr (.inl hunreadable)
    exact ⟨hunreadable, (hfailed (by omega)).1⟩

end ScriptTree.CommandLine
