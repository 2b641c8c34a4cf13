/-
  Compact text reads back.

  `compact` writes a value in one way and `parse` reads many ways of writing, so one direction can
  hold: what was written is what is read.  It does not hold of every value.  A number that is not an
  integer is read with roundings of its own, an integer beyond 64 bits is read as such a number, and
  the reader sorts the fields of an object.  `Faithful` leaves these out, and then the only bound is
  the nesting of brackets, which is counted on the text itself (`nesting`).

  Every reader is given the text of a value with anything behind it and has to stop where the value
  ends.  Only a number could run on, so what stands behind has to end it (`EndsNumber`).  The main
  induction is on the depth, on which the reader recurses; the items of one array and the fields of
  one object are handled by lemmas about any reader of values.
-/
import ScriptTree.Json.Reader
import ScriptTree.Json.Writer

namespace ScriptTree.Json

/-! ## Digits -/

/-- A text behind a number that cannot continue it. -/
def EndsNumber (rest : List Char) : Prop :=
  ∀ c ∈ rest.head?, c.isDigit = false ∧ c ≠ '.' ∧ c ≠ 'e' ∧ c ≠ 'E'

theorem EndsNumber.cons {c : Char} (rest : List Char)
    (h : c.isDigit = false ∧ c ≠ '.' ∧ c ≠ 'e' ∧ c ≠ 'E') : EndsNumber (c :: rest) := by
  intro d hd
  obtain rfl : c = d := by simpa using hd
  exact h

theorem endsNumber_nil : EndsNumber [] := by
  intro d hd
  simp at hd

/-- No number but zero is written with a zero in front. -/
theorem toDigits_head (n : Nat) (hn : n ≠ 0) : (Nat.toDigits 10 n).head? ≠ some '0' := by
  induction n using Nat.strongRecOn with
  | ind n ih =>
    rcases Nat.lt_or_ge n 10 with h | h
    · rw [Nat.toDigits_of_lt_base h]
      have small : ∀ m : Fin 10, m.val ≠ 0 → Nat.digitChar m.val ≠ '0' := by decide
      simpa using small ⟨n, h⟩ hn
    · rw [Nat.toDigits_of_base_le (by decide) h]
      have front := ih (n / 10) (by omega) (by omega)
      cases hds : Nat.toDigits 10 (n / 10) with
      | nil => exact absurd hds Nat.toDigits_ne_nil
      | cons c cs =>
        rw [hds] at front
        simpa using front

namespace Numeral

theorem takeDigits_toDigits (n : Nat) {rest : List Char} (hr : EndsNumber rest) :
    takeDigits (Nat.toDigits 10 n ++ rest) = some (Nat.toDigits 10 n, rest) := by
  have hd : ∀ c ∈ Nat.toDigits 10 n, c.isDigit = true :=
    fun c hc => Nat.isDigit_of_mem_toDigits (by decide) (by decide) hc
  have hrest : rest.takeWhile Char.isDigit = [] ∧ rest.dropWhile Char.isDigit = rest := by
    cases rest with
    | nil => simp
    | cons c cs =>
      have hc := (hr c (by simp)).1
      simp [hc]
  unfold takeDigits
  rw [List.takeWhile_append_of_pos hd, List.dropWhile_append_of_pos hd, hrest.1, hrest.2]
  cases h : Nat.toDigits 10 n with
  | nil => exact absurd h Nat.toDigits_ne_nil
  | cons c cs => simp

theorem takeWhole_toDigits (n : Nat) {rest : List Char} (hr : EndsNumber rest) :
    takeWhole (Nat.toDigits 10 n ++ rest) = some (Nat.toDigits 10 n, rest) := by
  unfold takeWhole
  rw [takeDigits_toDigits n hr]
  split
  · next c cs rest' heq =>
    -- a zero in front of further digits is not how a number is written
    have hds : Nat.toDigits 10 n = '0' :: c :: cs := by simpa using congrArg (Option.map Prod.fst) heq
    rcases Nat.eq_zero_or_pos n with rfl | hn
    · simp at hds
    · exact absurd (by rw [hds]; rfl) (toDigits_head n (by omega))
  · rfl

/-- The digits of a number are taken whole, with no point and no exponent behind them. -/
theorem takeUnsigned_toDigits (negative : Bool) (n : Nat) {rest : List Char}
    (hr : EndsNumber rest) :
    takeUnsigned negative (Nat.toDigits 10 n ++ rest) =
      some (⟨negative, Nat.toDigits 10 n, none, none⟩, rest) := by
  have hdec : takeDecimals rest = some (none, rest) := by
    unfold takeDecimals
    split
    · next cs => exact absurd rfl (hr '.' (by simp)).2.1
    · rfl
  have hexp : takeExponent rest = some (none, rest) := by
    unfold takeExponent
    split
    · next cs => exact absurd rfl (hr 'e' (by simp)).2.2.1
    · next cs => exact absurd rfl (hr 'E' (by simp)).2.2.2
    · rfl
  simp [takeUnsigned, takeWhole_toDigits n hr, hdec, hexp]

theorem valueOf_toDigits (n : Nat) : valueOf (Nat.toDigits 10 n) = n := by
  have h : valueOf (Nat.toDigits 10 n) = Nat.ofDigitChars 10 (Nat.toDigits 10 n) 0 := rfl
  rw [h, Nat.ofDigitChars_ten_toDigits]

end Numeral

/-- An integer is the number its text stands for. -/
theorem readNumber_integerChars {n : Int} (hn : -0x8000000000000000 ≤ n ∧ n < 0x10000000000000000)
    {rest : List Char} (hr : EndsNumber rest) :
    readNumber (integerChars n ++ rest) = some (.number (.integer n), rest) := by
  unfold readNumber integerChars
  split
  · next hneg =>
    have hval : (Numeral.mk true (Nat.toDigits 10 n.natAbs) none none).number? =
        some (.integer n) := by
      have habs : ¬ (n.natAbs = 0 ∨ 0x8000000000000000 < n.natAbs) := by omega
      simp only [Numeral.number?, Numeral.valueOf_toDigits, if_true, if_neg habs]
      rw [show -(n.natAbs : Int) = n by omega]
    simp [Numeral.take, Numeral.takeUnsigned_toDigits true n.natAbs hr, hval]
  · next hpos =>
    have hval : (Numeral.mk false (Nat.toDigits 10 n.natAbs) none none).number? =
        some (.integer n) := by
      have habs : n.natAbs < 0x10000000000000000 := by omega
      simp only [Numeral.number?, Numeral.valueOf_toDigits, if_pos habs]
      rw [show (n.natAbs : Int) = n by omega]
      simp
    have htake : Numeral.take (Nat.toDigits 10 n.natAbs ++ rest) =
        Numeral.takeUnsigned false (Nat.toDigits 10 n.natAbs ++ rest) := by
      unfold Numeral.take
      split
      · next cs heq =>
        -- no digit is a minus sign
        have hmem : '-' ∈ Nat.toDigits 10 n.natAbs := by
          cases h : Nat.toDigits 10 n.natAbs with
          | nil => exact absurd h Nat.toDigits_ne_nil
          | cons c ds => rw [h] at heq; simp_all
        exact absurd (Nat.isDigit_of_mem_toDigits (by decide) (by decide) hmem) (by decide)
      · rfl
    simp [htake, Numeral.takeUnsigned_toDigits false n.natAbs hr, hval]

/-! ## Strings -/

theorem hexValue_digitChar (n : Nat) (hn : n < 16) : hexValue? (Nat.digitChar n) = some n := by
  have small : ∀ m : Fin 16, hexValue? (Nat.digitChar m.val) = some m.val := by decide
  exact small ⟨n, hn⟩

/-- Each character is written as one piece, which stands for it whatever comes behind. -/
theorem readPieces_stringChar (c : Char) :
    ∃ p : Piece,
      (∀ cs, readPieces (stringChar c ++ cs) =
        (readPieces cs).map fun (ps, rest) => (p :: ps, rest)) ∧
      (∀ ps, joinPieces (p :: ps) = (joinPieces ps).map (c :: ·)) := by
  unfold stringChar
  split
  case h_8 hquote hback _ _ _ _ _ =>
    split
    · next hlow =>
      -- a control character without a letter of its own is a 16-bit unit, and no half of a pair
      refine ⟨.unit c.toNat, fun cs => ?_, fun ps => ?_⟩
      · have hhex : hexValue4? '0' '0' (Nat.digitChar (c.toNat / 16)) (Nat.digitChar (c.toNat % 16)) =
            some c.toNat := by
          have hzero : hexValue? '0' = some 0 := by decide
          simp only [hexValue4?, hzero, hexValue_digitChar _ (show c.toNat / 16 < 16 by omega),
            hexValue_digitChar _ (show c.toNat % 16 < 16 by omega)]
          show some (4096 * 0 + 256 * 0 + 16 * (c.toNat / 16) + c.toNat % 16) = some c.toNat
          congr 1
          omega
        simp [controlEscape, readPieces, hhex]
      · have hunit : ¬ (0xd800 ≤ c.toNat ∧ c.toNat < 0xdc00) ∧
            ¬ (0xdc00 ≤ c.toNat ∧ c.toNat < 0xe000) ∧ ¬ (0xd800 ≤ c.toNat ∧ c.toNat < 0xe000) := by omega
        cases ps with
        | nil => simp [joinPieces, hunit]
        | cons q qs => cases q <;> simp [joinPieces, hunit]
    · next hhigh =>
      refine ⟨.char c, fun cs => ?_, fun ps => rfl⟩
      have hplain : ¬ (c.toNat < 0x20 ∨ c = '\\') := by
        rintro (hlow | hc)
        · exact hhigh hlow
        · exact hback hc
      rw [List.singleton_append, readPieces, if_neg hplain]
      · exact hquote
      · intro _ _ _ _ _ hc _
        exact hback hc
      · intro _ _ hc
        exact absurd hc hback
  all_goals exact ⟨.char _, fun cs => by simp [readPieces, escaped?], fun ps => rfl⟩

/-- A string reads back, and its closing quote ends it. -/
theorem readString_stringChars (s : String) (rest : List Char) :
    readString (s.toList.flatMap stringChar ++ '"' :: rest) = some (s, rest) := by
  have pieces : ∀ cs : List Char, ∃ ps,
      readPieces (cs.flatMap stringChar ++ '"' :: rest) = some (ps, rest) ∧
        joinPieces ps = some cs := by
    intro cs
    induction cs with
    | nil => exact ⟨[], by simp [readPieces], rfl⟩
    | cons c cs ih =>
      obtain ⟨ps, hread, hjoin⟩ := ih
      obtain ⟨p, hp, hc⟩ := readPieces_stringChar c
      refine ⟨p :: ps, ?_, ?_⟩
      · rw [List.flatMap_cons, List.append_assoc, hp, hread]
        rfl
      · rw [hc, hjoin]
        rfl
  obtain ⟨ps, hread, hjoin⟩ := pieces s.toList
  simp [readString, hread, hjoin]

/-! ## Values that compact text keeps -/

mutual

/-- Whether a value can come back from its compact text: its numbers are integers of 64 bits, and
    the fields of its objects stand in the order in which they are kept. -/
def Faithful : Json → Prop
  | .number (.integer n) => -0x8000000000000000 ≤ n ∧ n < 0x10000000000000000
  | .number (.real _) => False
  | .array items => FaithfulItems items
  | .object fields => fields.Pairwise (·.1 < ·.1) ∧ FaithfulFields fields
  | _ => True

/-- Whether all values of a list can. -/
def FaithfulItems : List Json → Prop
  | [] => True
  | v :: vs => Faithful v ∧ FaithfulItems vs

/-- Whether the values of all fields can. -/
def FaithfulFields : List (String × Json) → Prop
  | [] => True
  | (_, v) :: fs => Faithful v ∧ FaithfulFields fs

end

mutual

/-- How deep the brackets of a value nest. -/
def depth : Json → Nat
  | .array items => 1 + depthOfItems items
  | .object fields => 1 + depthOfFields fields
  | _ => 0

/-- How deep the deepest of several values nests. -/
def depthOfItems : List Json → Nat
  | [] => 0
  | v :: vs => max (depth v) (depthOfItems vs)

/-- How deep the deepest of several fields nests. -/
def depthOfFields : List (String × Json) → Nat
  | [] => 0
  | (_, v) :: fs => max (depth v) (depthOfFields fs)

end

theorem FaithfulItems.mem {vs : List Json} (h : FaithfulItems vs) : ∀ v ∈ vs, Faithful v := by
  induction vs with
  | nil => intro v hv; simp at hv
  | cons w vs ih =>
    obtain ⟨hw, hvs⟩ := h
    intro v hv
    rcases List.mem_cons.mp hv with rfl | hv
    · exact hw
    · exact ih hvs v hv

theorem FaithfulFields.mem {fs : List (String × Json)} (h : FaithfulFields fs) :
    ∀ f ∈ fs, Faithful f.2 := by
  induction fs with
  | nil => intro f hf; simp at hf
  | cons g fs ih =>
    obtain ⟨hg, hfs⟩ := h
    intro f hf
    rcases List.mem_cons.mp hf with rfl | hf
    · exact hg
    · exact ih hfs f hf

theorem depth_le_of_mem {v : Json} {vs : List Json} (h : v ∈ vs) : v.depth ≤ depthOfItems vs := by
  induction vs with
  | nil => simp at h
  | cons w vs ih =>
    rcases List.mem_cons.mp h with rfl | h
    · simp only [depthOfItems]; omega
    · have := ih h
      simp only [depthOfItems]; omega

theorem depth_le_of_mem_fields {f : String × Json} {fs : List (String × Json)} (h : f ∈ fs) :
    f.2.depth ≤ depthOfFields fs := by
  induction fs with
  | nil => simp at h
  | cons g fs ih =>
    rcases List.mem_cons.mp h with rfl | h
    · simp only [depthOfFields]; omega
    · have := ih h
      simp only [depthOfFields]; omega

/-! ## Arrays and objects, for any reader of values -/

/-- The reader takes the text of a value, and stops there. -/
def Reads (read : List Char → Option (Json × List Char)) (v : Json) : Prop :=
  ∀ rest, EndsNumber rest → read (v.chars ++ rest) = some (v, rest)

theorem skipSpace_cons {c : Char} (rest : List Char) (h : isSpace c = false) :
    skipSpace (c :: rest) = c :: rest := by
  simp [skipSpace, h]

section

variable {read : List Char → Option (Json × List Char)}

theorem readItems_itemChars {vs : List Json} (hne : vs ≠ []) (hv : ∀ v ∈ vs, Reads read v)
    (n : Nat) (hn : vs.length ≤ n) (rest : List Char) :
    readItems read n (itemChars vs ++ ']' :: rest) = some (vs, rest) := by
  induction vs generalizing n with
  | nil => exact absurd rfl hne
  | cons v vs ih =>
    obtain ⟨m, rfl⟩ : ∃ m, n = m + 1 := ⟨n - 1, by simp at hn; omega⟩
    have hread := hv v (by simp)
    cases vs with
    | nil =>
      have hlast := hread (']' :: rest) (.cons rest (by decide))
      simp [itemChars, readItems, hlast, skipSpace_cons rest (show isSpace ']' = false by decide)]
    | cons w vs =>
      have hfirst := hread (',' :: (itemChars (w :: vs) ++ ']' :: rest)) (.cons _ (by decide))
      have hothers := ih (by simp) (fun u hu => hv u (List.mem_cons_of_mem v hu)) m
        (by simp at hn ⊢; omega)
      simp [itemChars, readItems, hfirst, hothers,
        skipSpace_cons _ (show isSpace ',' = false by decide)]

/-- A name, the colon and a value whose text has no blank in front. -/
theorem readField_chars {f : String × Json} (hf : Reads read f.2) {rest : List Char}
    (hr : EndsNumber rest) :
    readField read (stringChars f.1 ++ ':' :: (f.2.chars ++ rest)) = some (f, rest) := by
  have hname := readString_stringChars f.1 (':' :: (f.2.chars ++ rest))
  unfold readField stringChars
  simp only [List.cons_append, List.append_assoc, List.nil_append,
    skipSpace_cons _ (show isSpace '"' = false by decide), hname]
  simp [skipSpace_cons _ (show isSpace ':' = false by decide), hf rest hr]

theorem readFields_fieldChars {fs : List (String × Json)} (hne : fs ≠ [])
    (hf : ∀ f ∈ fs, Reads read f.2) (n : Nat) (hn : fs.length ≤ n) (rest : List Char) :
    readFields read n (fieldChars fs ++ '\x7d' :: rest) = some (fs, rest) := by
  induction fs generalizing n with
  | nil => exact absurd rfl hne
  | cons f fs ih =>
    obtain ⟨m, rfl⟩ : ∃ m, n = m + 1 := ⟨n - 1, by simp at hn; omega⟩
    have hread := hf f (by simp)
    cases fs with
    | nil =>
      have hlast := readField_chars hread (.cons rest (show _ by decide) : EndsNumber ('\x7d' :: rest))
      simp [fieldChars, readFields, hlast, skipSpace_cons rest (show isSpace '\x7d' = false by decide)]
    | cons g fs =>
      have hfirst := readField_chars hread
        (.cons (fieldChars (g :: fs) ++ '\x7d' :: rest) (by decide) : EndsNumber (',' :: _))
      have hothers := ih (by simp) (fun u hu => hf u (List.mem_cons_of_mem f hu)) m
        (by simp at hn ⊢; omega)
      simp [fieldChars, readFields, hfirst, hothers,
        skipSpace_cons _ (show isSpace ',' = false by decide)]

end

/-- Fields in order are kept as they come. -/
theorem ofFields_of_sorted {fs : List (String × Json)} (h : fs.Pairwise (·.1 < ·.1)) :
    ofFields fs = .object fs := by
  have last : ∀ (name : String) (value : Json) (es : List (String × Json)),
      (∀ e ∈ es, e.1 < name) → setField name value es = es ++ [(name, value)] := by
    intro name value es
    induction es with
    | nil => intro _; rfl
    | cons e es ih =>
      intro he
      have hlt := he e (by simp)
      have hngt : ¬ name < e.1 := fun hgt => String.lt_irrefl _ (String.lt_trans hlt hgt)
      have hne : ¬ name = e.1 := fun heq => String.lt_irrefl _ (heq ▸ hlt)
      simp only [setField, if_neg hngt, if_neg hne, List.cons_append]
      rw [ih fun d hd => he d (List.mem_cons_of_mem e hd)]
  have fold : ∀ (gs es : List (String × Json)), gs.Pairwise (·.1 < ·.1) →
      (∀ e ∈ es, ∀ g ∈ gs, e.1 < g.1) →
      gs.foldl (fun fs f => setField f.1 f.2 fs) es = es ++ gs := by
    intro gs
    induction gs with
    | nil => intro es _ _; simp
    | cons g gs ih =>
      intro es hgs hes
      obtain ⟨hg, hgs⟩ := List.pairwise_cons.mp hgs
      rw [List.foldl_cons, last g.1 g.2 es fun e he => hes e he g (by simp), ih _ hgs]
      · simp
      · intro e he x hx
        rcases List.mem_append.mp he with he | he
        · exact hes e he x (by simp [hx])
        · obtain rfl : e = g := by simpa using he
          exact hg x hx
  rw [ofFields, fold fs [] h (by simp), List.nil_append]

/-! ## Values -/

/-- The characters of an integer are digits, but for the sign. -/
theorem mem_integerChars {n : Int} {c : Char} (h : c ∈ integerChars n) :
    c = '-' ∨ c.isDigit = true := by
  have digits : c ∈ Nat.toDigits 10 n.natAbs → c.isDigit = true :=
    fun hc => Nat.isDigit_of_mem_toDigits (by decide) (by decide) hc
  unfold integerChars at h
  split at h
  · rcases List.mem_cons.mp h with rfl | h
    · exact .inl rfl
    · exact .inr (digits h)
  · exact .inr (digits h)

theorem integerChars_ne_nil (n : Int) : integerChars n ≠ [] := by
  unfold integerChars
  split
  · simp
  · exact Nat.toDigits_ne_nil

/-- What is neither a sign nor a digit stands in no integer. -/
theorem ne_of_mem_integerChars {n : Int} {c d : Char} (hc : c ∈ integerChars n) (hminus : d ≠ '-')
    (hdigit : d.isDigit = false) : c ≠ d := by
  rintro rfl
  rcases mem_integerChars hc with rfl | h
  · exact hminus rfl
  · simp [h] at hdigit

/-- The text of a value starts with neither a blank nor a closing bracket. -/
theorem chars_cons {v : Json} (hv : Faithful v) :
    ∃ c cs, v.chars = c :: cs ∧ isSpace c = false ∧ c ≠ ']' := by
  match v, hv with
  | .null, _ => exact ⟨_, _, rfl, by decide, by decide⟩
  | .bool true, _ => exact ⟨_, _, rfl, by decide, by decide⟩
  | .bool false, _ => exact ⟨_, _, rfl, by decide, by decide⟩
  | .string s, _ => exact ⟨_, _, rfl, by decide, by decide⟩
  | .array items, _ => exact ⟨_, _, rfl, by decide, by decide⟩
  | .object fields, _ => exact ⟨_, _, rfl, by decide, by decide⟩
  | .number (.integer n), _ =>
    obtain ⟨c, cs, hc⟩ := List.exists_cons_of_ne_nil (integerChars_ne_nil n)
    have hne {d : Char} := ne_of_mem_integerChars (d := d) (hc ▸ List.mem_cons_self : c ∈ integerChars n)
    refine ⟨c, cs, hc, ?_, hne (by decide) (by decide)⟩
    have hblank : c ≠ ' ' ∧ c ≠ '\t' ∧ c ≠ '\n' ∧ c ≠ '\r' := by
      refine ⟨?_, ?_, ?_, ?_⟩ <;> exact hne (by decide) (by decide)
    simp [isSpace, hblank]

/-- A text that starts like an integer is read as a number. -/
theorem readValue_integerChars (d : Nat) {n : Int}
    (hn : -0x8000000000000000 ≤ n ∧ n < 0x10000000000000000) {rest : List Char}
    (hr : EndsNumber rest) :
    readValue d (integerChars n ++ rest) = some (.number (.integer n), rest) := by
  have hnum := readNumber_integerChars hn hr
  obtain ⟨c, cs, hc, hspace, -⟩ := chars_cons (v := .number (.integer n)) hn
  have hc : integerChars n = c :: cs := hc
  have hne {d : Char} := ne_of_mem_integerChars (d := d) (hc ▸ List.mem_cons_self : c ∈ integerChars n)
  rw [hc, List.cons_append] at hnum ⊢
  unfold readValue
  rw [skipSpace_cons _ hspace]
  -- the other rules start with a letter, a quote or a bracket
  split
  case h_1 h => exact absurd (List.cons.inj h).1 (hne (by decide) (by decide))
  case h_2 h => exact absurd (List.cons.inj h).1 (hne (by decide) (by decide))
  case h_3 h => exact absurd (List.cons.inj h).1 (hne (by decide) (by decide))
  case h_4 h => exact absurd (List.cons.inj h).1 (hne (by decide) (by decide))
  case h_5 h => exact absurd (List.cons.inj h).1 (hne (by decide) (by decide))
  case h_6 h => exact absurd (List.cons.inj h).1 (hne (by decide) (by decide))
  case h_7 => exact hnum

theorem length_le_itemChars {vs : List Json} (hv : ∀ v ∈ vs, Faithful v) :
    vs.length ≤ (itemChars vs).length := by
  induction vs with
  | nil => simp
  | cons v vs ih =>
    obtain ⟨c, cs, hc, -⟩ := chars_cons (hv v (by simp))
    have hrest := ih fun w hw => hv w (List.mem_cons_of_mem v hw)
    cases vs with
    | nil => simp [itemChars, hc]
    | cons w vs => simp [itemChars, hc] at hrest ⊢; omega

theorem length_le_fieldChars (fs : List (String × Json)) : fs.length ≤ (fieldChars fs).length := by
  induction fs with
  | nil => simp
  | cons f fs ih =>
    cases fs with
    | nil => simp [fieldChars, stringChars]
    | cons g fs => simp [fieldChars, stringChars] at ih ⊢; omega

/-- An array reads back when its items do, one level further down. -/
theorem readValue_array {d : Nat} {vs : List Json} (hf : ∀ v ∈ vs, Faithful v)
    (hv : ∀ v ∈ vs, Reads (readValue d) v) (rest : List Char) :
    readValue (d + 1) ('[' :: (itemChars vs ++ ']' :: rest)) = some (.array vs, rest) := by
  unfold readValue
  rw [skipSpace_cons _ (show isSpace '[' = false by decide)]
  cases vs with
  | nil => simp [itemChars, skipSpace_cons rest (show isSpace ']' = false by decide)]
  | cons v vs =>
    obtain ⟨c, cs, hc, hspace, hclose⟩ := chars_cons (hf v (by simp))
    obtain ⟨cs', hcs⟩ : ∃ cs', itemChars (v :: vs) ++ ']' :: rest = c :: cs' := by
      cases vs <;> simp [itemChars, hc]
    have hlen := length_le_itemChars hf
    have hitems := readItems_itemChars (by simp) hv (itemChars (v :: vs) ++ ']' :: rest).length
      (by simp only [List.length_append]; omega) rest
    rw [hcs] at hitems ⊢
    simp only [skipSpace_cons cs' hspace]
    split
    · next h => exact absurd (List.cons.inj h).1 hclose
    · simp only [hitems, Option.map_some]

/-- An object with its fields in order reads back when their values do, one level further down. -/
theorem readValue_object {d : Nat} {fs : List (String × Json)} (hs : fs.Pairwise (·.1 < ·.1))
    (hf : ∀ f ∈ fs, Reads (readValue d) f.2) (rest : List Char) :
    readValue (d + 1) ('\x7b' :: (fieldChars fs ++ '\x7d' :: rest)) = some (.object fs, rest) := by
  unfold readValue
  rw [skipSpace_cons _ (show isSpace '\x7b' = false by decide)]
  cases fs with
  | nil => simp [fieldChars, skipSpace_cons rest (show isSpace '\x7d' = false by decide)]
  | cons f fs =>
    obtain ⟨cs', hcs⟩ : ∃ cs', fieldChars (f :: fs) ++ '\x7d' :: rest = '"' :: cs' := by
      cases fs <;> simp [fieldChars, stringChars]
    have hlen := length_le_fieldChars (f :: fs)
    have hfields := readFields_fieldChars (by simp) hf (fieldChars (f :: fs) ++ '\x7d' :: rest).length
      (by simp only [List.length_append]; omega) rest
    rw [hcs] at hfields ⊢
    simp only [skipSpace_cons cs' (show isSpace '"' = false by decide)]
    split
    · next h => exact absurd (List.cons.inj h).1 (by decide)
    · simp only [hfields, Option.map_some, ofFields_of_sorted hs]

/-- **A value reads back from its compact text**, as long as it nests no deeper than the reader
    goes.  The induction is on the depth, with the items of each level read one level further
    down. -/
theorem readValue_chars (d : Nat) : ∀ v : Json, Faithful v → v.depth ≤ d → Reads (readValue d) v := by
  induction d using Nat.strongRecOn with
  | ind d ih =>
    intro v hv hd rest hr
    match v, hv with
    | .null, _ => simp [chars, readValue, skipSpace, isSpace]
    | .bool true, _ => simp [chars, readValue, skipSpace, isSpace]
    | .bool false, _ => simp [chars, readValue, skipSpace, isSpace]
    | .number (.integer n), hn => exact readValue_integerChars d hn hr
    | .string s, _ =>
      have hs := readString_stringChars s rest
      simp [chars, stringChars, readValue, skipSpace, isSpace, hs]
    | .array items, hitems =>
      simp only [depth] at hd
      obtain ⟨k, rfl⟩ : ∃ k, d = k + 1 := ⟨d - 1, by omega⟩
      have hall := FaithfulItems.mem hitems
      have hdeep : ∀ w ∈ items, w.depth ≤ k := by
        intro w hw
        have := depth_le_of_mem hw
        omega
      have harray := readValue_array hall
        (fun w hw => ih k (by omega) w (hall w hw) (hdeep w hw)) rest
      simpa [chars] using harray
    | .object fields, ⟨hsorted, hfields⟩ =>
      simp only [depth] at hd
      obtain ⟨k, rfl⟩ : ∃ k, d = k + 1 := ⟨d - 1, by omega⟩
      have hall := FaithfulFields.mem hfields
      have hdeep : ∀ f ∈ fields, f.2.depth ≤ k := by
        intro f hf
        have := depth_le_of_mem_fields hf
        omega
      have hobject := readValue_object hsorted
        (fun f hf => ih k (by omega) f.2 (hall f hf) (hdeep f hf)) rest
      simpa [chars] using hobject

/-! ## Nesting, counted on the text -/

/-- The greatest number of brackets open at once while a text is read, from `level` open ones on and
    inside a string or not.  Inside a string brackets do not count, and a character behind a
    backslash does not end it. -/
def nestingFrom : Nat → Bool → List Char → Nat
  | level, _, [] => level
  | level, true, '\\' :: _ :: cs => nestingFrom level true cs
  | level, true, '"' :: cs => nestingFrom level false cs
  | level, true, _ :: cs => nestingFrom level true cs
  | level, false, '"' :: cs => nestingFrom level true cs
  | level, false, '[' :: cs => nestingFrom (level + 1) false cs
  | level, false, '\x7b' :: cs => nestingFrom (level + 1) false cs
  | level, false, ']' :: cs => max level (nestingFrom (level - 1) false cs)
  | level, false, '\x7d' :: cs => max level (nestingFrom (level - 1) false cs)
  | level, false, _ :: cs => nestingFrom level false cs

/-- How many brackets of a JSON text are open at once. -/
def nesting (text : String) : Nat :=
  nestingFrom 0 false text.toList

example : nesting "[1,[\"]\\\"]\",\x7b\x7d]]" = 3 := by decide +kernel

theorem le_nestingFrom (level : Nat) (quoted : Bool) (cs : List Char) :
    level ≤ nestingFrom level quoted cs := by
  fun_induction nestingFrom level quoted cs with
  | case1 => exact Nat.le_refl _
  | case2 | case3 | case4 | case5 | case10 => assumption
  | case6 | case7 => omega
  | case8 | case9 => omega

/-- The characters of an integer count for nothing. -/
theorem nestingFrom_integerChars (level : Nat) (n : Int) (rest : List Char) :
    nestingFrom level false (integerChars n ++ rest) = nestingFrom level false rest := by
  have plain : ∀ ds : List Char, (∀ c ∈ ds, c ∈ integerChars n) →
      nestingFrom level false (ds ++ rest) = nestingFrom level false rest := by
    intro ds
    induction ds with
    | nil => intro _; rfl
    | cons c ds ih =>
      intro h
      have hne {d : Char} := ne_of_mem_integerChars (d := d) (h c List.mem_cons_self)
      rw [List.cons_append, nestingFrom.eq_10 level c (ds ++ rest) (hne (by decide) (by decide))
        (hne (by decide) (by decide)) (hne (by decide) (by decide)) (hne (by decide) (by decide))
        (hne (by decide) (by decide))]
      exact ih fun d hd => h d (List.mem_cons_of_mem c hd)
  exact plain (integerChars n) fun c hc => hc

/-- A string counts for nothing, whatever it holds. -/
theorem nestingFrom_stringChars (level : Nat) (s : String) (rest : List Char) :
    nestingFrom level false (stringChars s ++ rest) = nestingFrom level false rest := by
  have char : ∀ (c : Char) (cs : List Char),
      nestingFrom level true (stringChar c ++ cs) = nestingFrom level true cs := by
    intro c cs
    unfold stringChar
    split
    case h_8 hquote hslash _ _ _ _ _ =>
      split
      · next hlow =>
        -- the digits of an escape neither end the string nor start another escape
        have hex : ∀ m : Fin 16, Nat.digitChar m.val ≠ '"' ∧ Nat.digitChar m.val ≠ '\\' := by decide
        have h1 := hex ⟨c.toNat / 16, by omega⟩
        have h2 := hex ⟨c.toNat % 16, by omega⟩
        simp [controlEscape, nestingFrom, h1, h2]
      · simp_all [nestingFrom]
    all_goals simp [nestingFrom]
  have chars : ∀ cs : List Char,
      nestingFrom level true (cs.flatMap stringChar ++ '"' :: rest) = nestingFrom level false rest := by
    intro cs
    induction cs with
    | nil => simp [nestingFrom]
    | cons c cs ih => rw [List.flatMap_cons, List.append_assoc, char, ih]
  simp [stringChars, nestingFrom, chars]

theorem nestingFrom_comma (level : Nat) (rest : List Char) :
    nestingFrom level false (',' :: rest) = nestingFrom level false rest := by
  simp [nestingFrom]

theorem nestingFrom_colon (level : Nat) (rest : List Char) :
    nestingFrom level false (':' :: rest) = nestingFrom level false rest := by
  simp [nestingFrom]

mutual

/-- Reading over a value reaches as deep as the value nests, and leaves the level as it was. -/
theorem nestingFrom_chars : ∀ (v : Json) (level : Nat) (rest : List Char), Faithful v →
    nestingFrom level false (v.chars ++ rest) =
      max (level + v.depth) (nestingFrom level false rest)
  | .null, level, rest, _ => by
    have := le_nestingFrom level false rest
    simp [chars, nestingFrom, depth]; omega
  | .bool true, level, rest, _ => by
    have := le_nestingFrom level false rest
    simp [chars, nestingFrom, depth]; omega
  | .bool false, level, rest, _ => by
    have := le_nestingFrom level false rest
    simp [chars, nestingFrom, depth]; omega
  | .number (.integer n), level, rest, _ => by
    have := le_nestingFrom level false rest
    simp [chars, Number.chars, nestingFrom_integerChars, depth]; omega
  | .string s, level, rest, _ => by
    have := le_nestingFrom level false rest
    simp [chars, nestingFrom_stringChars, depth]; omega
  | .array items, level, rest, h => by
    have hitems := nestingFrom_itemChars items (level + 1) (']' :: rest) h
    simp only [chars, List.cons_append, List.append_assoc, List.nil_append, nestingFrom, depth]
      at hitems ⊢
    rw [hitems, Nat.add_sub_cancel]
    omega
  | .object fields, level, rest, h => by
    have hfields := nestingFrom_fieldChars fields (level + 1) ('\x7d' :: rest) h.2
    simp only [chars, List.cons_append, List.append_assoc, List.nil_append, nestingFrom, depth]
      at hfields ⊢
    rw [hfields, Nat.add_sub_cancel]
    omega

theorem nestingFrom_itemChars : ∀ (vs : List Json) (level : Nat) (rest : List Char),
    FaithfulItems vs →
    nestingFrom level false (itemChars vs ++ rest) =
      max (level + depthOfItems vs) (nestingFrom level false rest)
  | [], level, rest, _ => by
    have := le_nestingFrom level false rest
    simp [itemChars, depthOfItems]; omega
  | [v], level, rest, h => by
    have hv := nestingFrom_chars v level rest h.1
    simp only [itemChars, depthOfItems, hv]; omega
  | v :: w :: vs, level, rest, h => by
    have hv := nestingFrom_chars v level (',' :: (itemChars (w :: vs) ++ rest)) h.1
    have hvs := nestingFrom_itemChars (w :: vs) level rest h.2
    simp only [itemChars, List.append_assoc, List.cons_append, hv, nestingFrom_comma, hvs]
    simp only [depthOfItems]
    omega

theorem nestingFrom_fieldChars : ∀ (fs : List (String × Json)) (level : Nat) (rest : List Char),
    FaithfulFields fs →
    nestingFrom level false (fieldChars fs ++ rest) =
      max (level + depthOfFields fs) (nestingFrom level false rest)
  | [], level, rest, _ => by
    have := le_nestingFrom level false rest
    simp [fieldChars, depthOfFields]; omega
  | [(n, v)], level, rest, h => by
    have hv := nestingFrom_chars v level rest h.1
    simp only [fieldChars, List.append_assoc, List.cons_append, nestingFrom_stringChars,
      nestingFrom_colon, hv, depthOfFields]
    omega
  | (n, v) :: g :: fs, level, rest, h => by
    have hv := nestingFrom_chars v level (',' :: (fieldChars (g :: fs) ++ rest)) h.1
    have hfs := nestingFrom_fieldChars (g :: fs) level rest h.2
    simp only [fieldChars, List.append_assoc, List.cons_append, nestingFrom_stringChars,
      nestingFrom_colon, hv, nestingFrom_comma, hfs]
    simp only [depthOfFields]
    omega

end

/-- The nesting of the compact text is the depth of the value. -/
theorem nesting_compact {v : Json} (h : Faithful v) : nesting v.compact = v.depth := by
  have hv := nestingFrom_chars v 0 [] h
  simpa [nesting, compact, nestingFrom] using hv

/-- **Compact text reads back**: whatever is written within the nesting that the reader allows is
    read as the value it was written from. -/
theorem parse_compact {v : Json} (h : Faithful v) (hn : nesting v.compact ≤ maxDepth) :
    parse v.compact = some v := by
  have hd : v.depth ≤ maxDepth := nesting_compact h ▸ hn
  have hread := readValue_chars maxDepth v h hd [] endsNumber_nil
  rw [List.append_nil] at hread
  simp [parse, compact, hread, skipSpace]

end ScriptTree.Json
