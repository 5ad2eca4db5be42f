import Rcodex.Broker.Protocol

/-!
# The two readings of a pairing code

`PairingCode.new` reads the bytes of a text and refuses the first one that does not belong to a
code.  `buildManualPairingBody` reads the characters, and checks what is left after it took out the
separators.  `compactCode_utf8` says that the bytes give what the characters give, so that both
accept the same texts and make the same code of them.
-/

namespace Rcodex

open Json Result

/-- The errors of `build_manual_pairing_body`; `slice` is a panic. -/
inductive PairingBodyError where
  | emptyClientId
  | invalidCode
  | slice
deriving DecidableEq

/-- The text of an error, as the source reports it. -/
def PairingBodyError.text : PairingBodyError → String
  | .emptyClientId => "rcodex client ID is empty"
  | .invalidCode => "manual pairing code must contain exactly eight letters or digits"
  | .slice => "byte index 4 is not a char boundary"

/-- Whether a character is part of a code, that is, no separator. -/
def isCodePart (c : Char) : Bool := !Text.isAsciiWhitespace c && c != '-'

/-- The code without separators, in upper case. -/
def compactText (manualPairingCode : String) : List Char :=
  (manualPairingCode.toList.filter isCodePart).map Text.toAsciiUppercase

/-- The body with this code. -/
def pairingBody (clientId formatted : String) : Value :=
  .ofMembers [("client_id", .string clientId), ("manual_pairing_code", .string formatted)]

/-- `build_manual_pairing_body` -/
def buildManualPairingBody (clientId manualPairingCode : String) :
    Except PairingBodyError Value := do
  bailWhen (Text.trim clientId = "") .emptyClientId
  let compact := String.ofList (compactText manualPairingCode)
  bailWhen ((Text.utf8 compact).length ≠ 8 ∨ compact.toList.all Text.isAsciiAlphanumeric = false)
    .invalidCode
  let first ← context .slice (Text.sliceTo compact 4)
  let second ← context .slice (Text.sliceFrom compact 4)
  return pairingBody clientId (first ++ "-" ++ second)

/-- `PairingCode::as_str`; nothing where the source panics. -/
def PairingCode.asStr (code : PairingCode) : Option String := Text.fromUtf8 code.bytes

/-! ### Characters of a code -/

/-- An upper-case letter of ASCII or a digit. -/
def IsCodeChar (c : Char) : Prop := (48 ≤ c.toNat ∧ c.toNat ≤ 57) ∨ (65 ≤ c.toNat ∧ c.toNat ≤ 90)

instance (c : Char) : Decidable (IsCodeChar c) := inferInstanceAs (Decidable (_ ∨ _))

/-- The code in two groups. -/
def formattedCode (code : List Char) : String := .ofList (code.take 4 ++ '-' :: code.drop 4)

/-- Eight characters of a code. -/
structure IsCode (code : List Char) : Prop where
  /-- Eight of them. -/
  length_eq : code.length = 8
  /-- Upper-case letters and digits. -/
  isCodeChar : ∀ c ∈ code, IsCodeChar c

/-- A character of a code is in ASCII. -/
theorem IsCodeChar.lt {c : Char} (h : IsCodeChar c) : c.toNat < 128 := by
  unfold IsCodeChar at h
  omega

/-- What holds of the characters of ASCII. -/
theorem forall_ascii {P : Char → Prop} (h : ∀ n < 128, P (Char.ofNat n)) {c : Char}
    (hc : c.toNat < 128) : P c := by
  have hP := h c.toNat hc
  rwa [Char.ofNat_toNat] at hP

/-- The classes of the bytes are those of the characters. -/
theorem byte_classes {c : Char} (hc : c.toNat < 128) :
    (isAsciiWhitespace (UInt8.ofNat c.toNat) || UInt8.ofNat c.toNat == 45) = !isCodePart c ∧
      isAsciiAlphanumeric (UInt8.ofNat c.toNat) = Text.isAsciiAlphanumeric c ∧
      toAsciiUppercase (UInt8.ofNat c.toNat) = UInt8.ofNat (Text.toAsciiUppercase c).toNat := by
  refine forall_ascii (P := fun c =>
    (isAsciiWhitespace (UInt8.ofNat c.toNat) || UInt8.ofNat c.toNat == 45) = !isCodePart c ∧
      isAsciiAlphanumeric (UInt8.ofNat c.toNat) = Text.isAsciiAlphanumeric c ∧
      toAsciiUppercase (UInt8.ofNat c.toNat) = UInt8.ofNat (Text.toAsciiUppercase c).toNat) ?_ hc
  decide +kernel

/-- No byte beyond ASCII is a separator, a letter or a digit. -/
theorem byte_classes_of_le {b : UInt8} (hb : 128 ≤ b.toNat) :
    (isAsciiWhitespace b || b == 45) = false ∧ isAsciiAlphanumeric b = false := by
  have hall : ∀ n < 256, 128 ≤ n →
      (isAsciiWhitespace (UInt8.ofNat n) || UInt8.ofNat n == 45) = false ∧
        isAsciiAlphanumeric (UInt8.ofNat n) = false := by
    decide +kernel
  have hclasses := hall b.toNat b.toNat_lt hb
  rwa [UInt8.ofNat_toNat] at hclasses

/-- No character beyond ASCII is a separator, a letter or a digit. -/
theorem char_classes_of_le {c : Char} (hc : 128 ≤ c.toNat) :
    isCodePart c = true ∧ Text.toAsciiUppercase c = c ∧ Text.isAsciiAlphanumeric c = false := by
  have hne : ∀ d : Char, d.toNat < 128 → c ≠ d := by
    rintro d hd rfl
    omega
  refine ⟨?_, if_neg (by omega), ?_⟩
  · simp [isCodePart, Text.isAsciiWhitespace, hne]
  · simp only [Text.isAsciiAlphanumeric, Bool.or_eq_false_iff, Bool.and_eq_false_iff,
      decide_eq_false_iff_not]
    omega

/-- A letter or digit in upper case. -/
theorem isCodeChar_toAsciiUppercase {c : Char}
    (h : Text.isAsciiAlphanumeric (Text.toAsciiUppercase c) = true) :
    IsCodeChar (Text.toAsciiUppercase c) := by
  rcases lt_or_ge c.toNat 128 with hc | hc
  · revert h
    exact forall_ascii (P := fun c => Text.isAsciiAlphanumeric (Text.toAsciiUppercase c) = true →
      IsCodeChar (Text.toAsciiUppercase c)) (by decide +kernel) hc
  · obtain ⟨-, hupper, hother⟩ := char_classes_of_le hc
    rw [hupper, hother] at h
    contradiction

/-- The characters of a code are kept as they are. -/
theorem IsCodeChar.classes {c : Char} (h : IsCodeChar c) :
    isCodePart c = true ∧ Text.toAsciiUppercase c = c ∧ Text.isAsciiAlphanumeric c = true := by
  have hlt := h.lt
  revert h
  exact forall_ascii (P := fun c => IsCodeChar c →
    isCodePart c = true ∧ Text.toAsciiUppercase c = c ∧ Text.isAsciiAlphanumeric c = true)
    (by decide +kernel) hlt

/-- The letter or digit that a byte is. -/
theorem isAsciiAlphanumeric_toAsciiUppercase {c : Char} (hc : c.toNat < 128) :
    Text.isAsciiAlphanumeric (Text.toAsciiUppercase c) = Text.isAsciiAlphanumeric c :=
  forall_ascii (P := fun c => Text.isAsciiAlphanumeric (Text.toAsciiUppercase c) =
    Text.isAsciiAlphanumeric c) (by decide +kernel) hc

/-- The bytes of a text give the code that its characters give. -/
theorem compactCode_utf8 (value : String) :
    compactCode (Text.utf8 value) =
      if (compactText value).all Text.isAsciiAlphanumeric then
        some ((compactText value).map fun c => UInt8.ofNat c.toNat)
      else none := by
  rw [Text.utf8, compactText]
  induction value.toList with
  | nil => rfl
  | cons c cs ih =>
    rw [List.flatMap_cons]
    rcases lt_or_ge c.toNat 128 with hc | hc
    · obtain ⟨hseparator, halnum, hupper⟩ := byte_classes hc
      rw [Text.utf8EncodeChar_of_lt hc, List.singleton_append, compactCode, hseparator, halnum,
        hupper, ih]
      cases hpart : isCodePart c with
      | false =>
        rw [List.filter_cons_of_neg (by simp [hpart])]
        rfl
      | true =>
        rw [List.filter_cons_of_pos hpart, List.map_cons, List.all_cons,
          isAsciiAlphanumeric_toAsciiUppercase hc, List.map_cons]
        cases Text.isAsciiAlphanumeric c with
        | false => rfl
        | true =>
          simp only [Bool.not_true, Bool.false_eq_true, if_false, if_true, Bool.true_and]
          split_ifs <;> rfl
    · obtain ⟨hpart, hupper, hother⟩ := char_classes_of_le hc
      obtain ⟨b, bytes, hbytes⟩ :=
        List.exists_cons_of_ne_nil (String.utf8EncodeChar_ne_nil (c := c))
      have hb : 128 ≤ b.toNat := Text.le_of_mem_utf8EncodeChar hc (by simp [hbytes])
      obtain ⟨hseparator, halnum⟩ := byte_classes_of_le hb
      rw [hbytes, List.cons_append, compactCode, hseparator, halnum, List.filter_cons_of_pos hpart,
        List.map_cons, hupper, List.all_cons, hother]
      rfl

/-! ### The two readings -/

/-- The texts of codes: two groups of four upper-case letters or digits, joined by a hyphen. -/
def IsPairingText (text : String) : Prop := ∃ code, IsCode code ∧ text = formattedCode code

/-- What is left of a text is a code if it consists of eight letters or digits. -/
theorem isCode_compactText_iff {value : String} :
    IsCode (compactText value) ↔ (compactText value).length = 8 ∧
      (compactText value).all Text.isAsciiAlphanumeric = true := by
  constructor
  · rintro ⟨hlength, hchars⟩
    exact ⟨hlength, List.all_eq_true.mpr fun c hc => (hchars c hc).classes.2.2⟩
  · rintro ⟨hlength, hall⟩
    refine ⟨hlength, fun c hc => ?_⟩
    have halnum := List.all_eq_true.mp hall c hc
    obtain ⟨d, -, rfl⟩ := List.mem_map.mp hc
    exact isCodeChar_toAsciiUppercase halnum

namespace IsCode

variable {code : List Char}

/-- A code is in ASCII. -/
theorem lt (h : IsCode code) : ∀ c ∈ code, c.toNat < 128 := fun c hc => (h.isCodeChar c hc).lt

/-- The bytes of its two groups. -/
theorem utf8_formattedCode (h : IsCode code) :
    Text.utf8 (formattedCode code) = (code.map fun c => UInt8.ofNat c.toNat).take 4 ++
      45 :: (code.map fun c => UInt8.ofNat c.toNat).drop 4 := by
  have hlt : ∀ c ∈ code.take 4 ++ '-' :: code.drop 4, c.toNat < 128 := by
    intro c hc
    rcases List.mem_append.mp hc with hc | hc
    · exact h.lt c (List.mem_of_mem_take hc)
    · rcases List.mem_cons.mp hc with rfl | hc
      · decide
      · exact h.lt c (List.mem_of_mem_drop hc)
  rw [formattedCode, Text.utf8_ofList_of_lt hlt, List.map_append, List.map_cons, List.map_take,
    List.map_drop]
  rfl

/-- A code is its own code. -/
theorem compactText_formattedCode (h : IsCode code) : compactText (formattedCode code) = code := by
  have hparts : (code.take 4 ++ '-' :: code.drop 4).filter isCodePart = code := by
    have hkeep : ∀ cs : List Char, (∀ c ∈ cs, c ∈ code) → cs.filter isCodePart = cs :=
      fun cs hcs => List.filter_eq_self.mpr fun c hc => (h.isCodeChar c (hcs c hc)).classes.1
    rw [List.filter_append, List.filter_cons_of_neg (by decide),
      hkeep _ fun c hc => List.mem_of_mem_take hc, hkeep _ fun c hc => List.mem_of_mem_drop hc,
      List.take_append_drop]
  rw [compactText, formattedCode, String.toList_ofList, hparts]
  exact (List.map_congr_left fun c hc => (h.isCodeChar c hc).classes.2.1).trans (List.map_id _)

end IsCode

/-- A pairing code is determined by its bytes. -/
theorem PairingCode.bytes_inj {code code' : PairingCode} (h : code.bytes = code'.bytes) :
    code = code' := by
  obtain ⟨hfirst, hrest⟩ := List.append_inj h (code.length_first.trans code'.length_first.symm)
  have hsecond : code.second = code'.second := (List.cons.inj hrest).2
  cases code
  cases code'
  subst hfirst hsecond
  rfl

/-- The bytes give a code if the characters do. -/
theorem PairingCode.exists_new {value : String} (h : IsCode (compactText value)) :
    ∃ code, PairingCode.new value = .ok code ∧
      code.bytes = Text.utf8 (formattedCode (compactText value)) := by
  have hcompact : compactCode (Text.utf8 value) =
      some ((compactText value).map fun c => UInt8.ofNat c.toNat) := by
    rw [compactCode_utf8, if_pos (isCode_compactText_iff.mp h).2]
  unfold PairingCode.new
  split
  next hnone =>
    rw [hcompact] at hnone
    contradiction
  next compact hsome =>
    obtain rfl := Option.some.inj (hcompact.symm.trans hsome)
    rw [dif_pos (by rw [List.length_map, h.length_eq])]
    exact ⟨_, rfl, h.utf8_formattedCode.symm⟩

/-- The bytes give a code only if the characters do. -/
theorem PairingCode.isCode_of_new {value : String} {code : PairingCode}
    (h : PairingCode.new value = .ok code) : IsCode (compactText value) := by
  rw [isCode_compactText_iff]
  unfold PairingCode.new at h
  split at h
  next => contradiction
  next compact hsome =>
    rw [compactCode_utf8] at hsome
    split_ifs at hsome with hall
    obtain rfl := Option.some.inj hsome
    split_ifs at h with hlength
    rw [List.length_map] at hlength
    exact ⟨hlength, hall⟩

/-- The first reading. -/
theorem PairingCode.new_eq_ok_iff {value : String} {code : PairingCode} :
    PairingCode.new value = .ok code ↔ IsCode (compactText value) ∧
      code.bytes = Text.utf8 (formattedCode (compactText value)) := by
  constructor
  · intro h
    obtain ⟨code', hnew, hbytes⟩ := PairingCode.exists_new (PairingCode.isCode_of_new h)
    obtain rfl := Except.ok.inj (hnew.symm.trans h)
    exact ⟨PairingCode.isCode_of_new h, hbytes⟩
  · rintro ⟨hcode, hbytes⟩
    obtain ⟨code', hnew, hbytes'⟩ := PairingCode.exists_new hcode
    rw [hnew, PairingCode.bytes_inj (hbytes.trans hbytes'.symm)]

/-- A code that was read has the text of its two groups. -/
theorem PairingCode.asStr_eq {value : String} {code : PairingCode}
    (h : PairingCode.new value = .ok code) :
    code.asStr = some (formattedCode (compactText value)) := by
  rw [PairingCode.asStr, (PairingCode.new_eq_ok_iff.mp h).2, Text.fromUtf8_utf8]

/-- Every code has a text. -/
theorem PairingCode.asStr_ne_none (code : PairingCode) : code.asStr ≠ none := by
  have hlt : ∀ b ∈ code.bytes, b.toNat < 128 := by
    have hcode : ∀ b : UInt8, IsCodeByte b → b.toNat < 128 := by
      intro b hb
      simp only [IsCodeByte, UInt8.le_iff_toNat_le] at hb
      simp only [UInt8.reduceToNat] at hb
      omega
    intro b hb
    rcases List.mem_append.mp hb with hb | hb
    · exact hcode b (code.isCodeByte b (List.mem_append_left _ hb))
    · rcases List.mem_cons.mp hb with rfl | hb
      · decide
      · exact hcode b (code.isCodeByte b (List.mem_append_right _ hb))
  rw [PairingCode.asStr, Text.fromUtf8_of_lt hlt]
  simp

/-- The two slices of a code. -/
theorem IsCode.slices {code : List Char} (h : IsCode code) :
    Text.sliceTo (.ofList code) 4 = some (.ofList (code.take 4)) ∧
      Text.sliceFrom (.ofList code) 4 = some (.ofList (code.drop 4)) :=
  Text.slices_ofList_of_lt h.lt (by rw [h.length_eq]; decide)

/-- The second check is passed by the codes. -/
theorem isCode_iff_check {value : String} :
    IsCode (compactText value) ↔
      ¬((Text.utf8 (.ofList (compactText value))).length ≠ 8 ∨
        (String.ofList (compactText value)).toList.all Text.isAsciiAlphanumeric = false) := by
  rw [isCode_compactText_iff, String.toList_ofList, not_or, not_not, Bool.not_eq_false]
  refine and_congr_left fun hall => ?_
  have hlt : ∀ c ∈ compactText value, c.toNat < 128 := by
    intro c hc
    by_contra hle
    have halnum := List.all_eq_true.mp hall c hc
    rw [(char_classes_of_le (not_lt.mp hle)).2.2] at halnum
    contradiction
  rw [Text.utf8_ofList_of_lt hlt, List.length_map]

/-- The second reading. -/
theorem buildManualPairingBody_eq_ok_iff {clientId value : String} {body : Value}
    (hclient : Text.trim clientId ≠ "") :
    buildManualPairingBody clientId value = .ok body ↔ IsCode (compactText value) ∧
      body = pairingBody clientId (formattedCode (compactText value)) := by
  have hjoin : ∀ first second : List Char, String.ofList first ++ "-" ++ String.ofList second =
      String.ofList (first ++ '-' :: second) := by
    intro first second
    rw [← String.toList_inj]
    simp
  simp only [buildManualPairingBody, bind_eq_ok_iff, bailWhen_eq_ok_iff, context_eq_ok_iff,
    pure_eq_ok_iff, ← isCode_iff_check]
  constructor
  · rintro ⟨_, -, _, hcode, first, hfirst, second, hsecond, rfl⟩
    obtain rfl := Option.some.inj (hcode.slices.1.symm.trans hfirst)
    obtain rfl := Option.some.inj (hcode.slices.2.symm.trans hsecond)
    rw [hjoin]
    exact ⟨hcode, rfl⟩
  · rintro ⟨hcode, rfl⟩
    refine ⟨(), hclient, (), hcode, _, hcode.slices.1, _, hcode.slices.2, ?_⟩
    rw [hjoin]
    rfl

/-- No slice is out of range. -/
theorem buildManualPairingBody_ne_slice (clientId value : String) :
    buildManualPairingBody clientId value ≠ .error .slice := by
  intro h
  by_cases hclient : Text.trim clientId = ""
  · rw [buildManualPairingBody, bailWhen, if_pos hclient] at h
    simp [bind, Except.bind] at h
  by_cases hcode : IsCode (compactText value)
  · rw [(buildManualPairingBody_eq_ok_iff hclient).mpr ⟨hcode, rfl⟩] at h
    contradiction
  · have hcheck := not_not.mp (mt isCode_iff_check.mpr hcode)
    simp only [buildManualPairingBody, bailWhen, if_neg hclient, if_pos hcheck, bind,
      Except.bind] at h
    contradiction

/-- For every text, the two functions accept it or refuse it together, and they make the same code
of it: two groups of four upper-case letters or digits.  Such a code is read as itself by both, and
neither of them panics. -/
theorem pairing_normalisers_agree (value clientId : String) (hclient : Text.trim clientId ≠ "") :
    ((∃ code, PairingCode.new value = .ok code) ↔
      ∃ body, buildManualPairingBody clientId value = .ok body) ∧
    (∀ code, PairingCode.new value = .ok code → ∃ text, IsPairingText text ∧
      code.asStr = some text ∧
      buildManualPairingBody clientId value = .ok (pairingBody clientId text) ∧
      PairingCode.new text = .ok code ∧
      buildManualPairingBody clientId text = .ok (pairingBody clientId text)) ∧
    (∀ code : PairingCode, code.asStr ≠ none) ∧
    ∀ anyClientId anyValue, buildManualPairingBody anyClientId anyValue ≠ .error .slice := by
  have hbuild := @buildManualPairingBody_eq_ok_iff clientId
  refine ⟨?_, fun code hcode => ?_, PairingCode.asStr_ne_none, buildManualPairingBody_ne_slice⟩
  · constructor
    · rintro ⟨code, hcode⟩
      exact ⟨_, (hbuild hclient).mpr ⟨(PairingCode.new_eq_ok_iff.mp hcode).1, rfl⟩⟩
    · rintro ⟨body, hbody⟩
      obtain ⟨code, hcode, -⟩ := PairingCode.exists_new ((hbuild hclient).mp hbody).1
      exact ⟨code, hcode⟩
  · obtain ⟨hiscode, hbytes⟩ := PairingCode.new_eq_ok_iff.mp hcode
    have hself := hiscode.compactText_formattedCode
    refine ⟨formattedCode (compactText value), ⟨_, hiscode, rfl⟩, PairingCode.asStr_eq hcode,
      (hbuild hclient).mpr ⟨hiscode, rfl⟩, PairingCode.new_eq_ok_iff.mpr ?_,
      (hbuild hclient).mpr ?_⟩
    · rw [hself]
      exact ⟨hiscode, hbytes⟩
    · rw [hself]
      exact ⟨hiscode, rfl⟩

/-- A code in lower case, with a blank for the hyphen. -/
theorem pairing_normalisers_agree_blank :
    buildManualPairingBody "client" "abcd 12ef" = .ok (pairingBody "client" "ABCD-12EF") ∧
      ∃ code, PairingCode.new "abcd 12ef" = .ok code := by
  have hbody : buildManualPairingBody "client" "abcd 12ef" =
      .ok (pairingBody "client" "ABCD-12EF") := by decide +kernel
  exact ⟨hbody, (pairing_normalisers_agree "abcd 12ef" "client" (by decide)).1.mpr ⟨_, hbody⟩⟩

end Rcodex
