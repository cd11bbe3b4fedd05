import RelaxDoc.Text.Utf8

/-! Reading UTF-8 undoes writing it: the bytes that are read as a text are those that encode it. -/
namespace RelaxDoc.Text

/-- Bytes that encode the character of a number, by the range of the first. -/
inductive Encodes : List UInt8 → Nat → Prop where
  | one {a : UInt8} (lead : a < 0x80) : Encodes [a] a.toNat
  | two {a b : UInt8} (lead : 0xC2 ≤ a ∧ a ≤ 0xDF) (second : isContinuation b = true) :
      Encodes [a, b] ((a.toNat % 32) * 64 + payload b)
  | three {a b c : UInt8} (lead : 0xE0 ≤ a ∧ a ≤ 0xEF) (second : isSecond a b = true)
      (third : isContinuation c = true) :
      Encodes [a, b, c] ((a.toNat % 16) * 4096 + payload b * 64 + payload c)
  | four {a b c d : UInt8} (lead : 0xF0 ≤ a ∧ a ≤ 0xF4) (second : isSecond a b = true)
      (third : isContinuation c = true) (fourth : isContinuation d = true) :
      Encodes [a, b, c, d]
        ((a.toNat % 8) * 262144 + payload b * 4096 + payload c * 64 + payload d)

variable {a b : UInt8} {bytes rest : List UInt8} {n sound : Nat} {cs : List Char}

theorem inRange_iff {low high : UInt8} : (decide (low ≤ b) && decide (b ≤ high)) = true ↔
    low.toNat ≤ b.toNat ∧ b.toNat ≤ high.toNat := by
  simp [UInt8.le_iff_toNat_le]

theorem not_ascii (large : 128 ≤ a.toNat) : ¬ a < 0x80 :=
  fun less => Nat.not_lt.2 large (UInt8.lt_iff_toNat_lt.1 less)

theorem isContinuation_iff : isContinuation b = true ↔ 128 ≤ b.toNat ∧ b.toNat ≤ 191 :=
  inRange_iff

/-- The second byte keeps out what can be shorter, surrogates, and what is too large. -/
theorem isSecond_iff : isSecond a b = true ↔ 128 ≤ b.toNat ∧ b.toNat ≤ 191 ∧
    (a.toNat = 224 → 160 ≤ b.toNat) ∧ (a.toNat = 237 → b.toNat ≤ 159) ∧
    (a.toNat = 240 → 144 ≤ b.toNat) ∧ (a.toNat = 244 → b.toNat ≤ 143) := by
  rw [isSecond, inRange_iff, secondRange]
  simp only [← UInt8.toNat_inj]
  split
  · simp_all
    omega
  · split
    · simp_all
      omega
    · split
      · simp_all
        omega
      · split
        · simp_all
          omega
        · simp_all

theorem toNat_ofNat (valid : n.isValidChar) : (Char.ofNat n).val.toNat = n := by
  rw [Char.ofNat, dif_pos valid]
  rfl

theorem utf8EncodeChar_of_encodes (encodes : Encodes bytes n) :
    String.utf8EncodeChar (Char.ofNat n) = bytes := by
  cases encodes with
  | @one a lead =>
    have low : a.toNat < 128 := UInt8.lt_iff_toNat_lt.1 lead
    rw [String.utf8EncodeChar, toNat_ofNat (.inl (by omega))]
    simp [show a.toNat ≤ 127 by omega]
  | @two a b lead second =>
    have low : 194 ≤ a.toNat := UInt8.le_iff_toNat_le.1 lead.1
    have high : a.toNat ≤ 223 := UInt8.le_iff_toNat_le.1 lead.2
    have next := isContinuation_iff.1 second
    unfold payload
    rw [String.utf8EncodeChar, toNat_ofNat (.inl (by omega))]
    rw [if_neg (by omega), if_pos (by omega)]
    simp only [List.cons.injEq, and_true, ← UInt8.toNat_inj, UInt8.toNat_ofNat']
    omega
  | @three a b c lead second third =>
    have low : 224 ≤ a.toNat := UInt8.le_iff_toNat_le.1 lead.1
    have high : a.toNat ≤ 239 := UInt8.le_iff_toNat_le.1 lead.2
    have next := isSecond_iff.1 second
    have last := isContinuation_iff.1 third
    unfold payload
    rw [String.utf8EncodeChar, toNat_ofNat (by unfold Nat.isValidChar; omega)]
    rw [if_neg (by omega), if_neg (by omega), if_pos (by omega)]
    simp only [List.cons.injEq, and_true, ← UInt8.toNat_inj, UInt8.toNat_ofNat']
    omega
  | @four a b c d lead second third fourth =>
    have low : 240 ≤ a.toNat := UInt8.le_iff_toNat_le.1 lead.1
    have high : a.toNat ≤ 244 := UInt8.le_iff_toNat_le.1 lead.2
    have next := isSecond_iff.1 second
    have further := isContinuation_iff.1 third
    have last := isContinuation_iff.1 fourth
    unfold payload
    rw [String.utf8EncodeChar, toNat_ofNat (by unfold Nat.isValidChar; omega)]
    rw [if_neg (by omega), if_neg (by omega), if_neg (by omega)]
    simp only [List.cons.injEq, and_true, ← UInt8.toNat_inj, UInt8.toNat_ofNat']
    omega

/-- The bytes of a character, as Lean has them, encode its number. -/
theorem encodes_utf8EncodeChar (c : Char) : Encodes (String.utf8EncodeChar c) c.val.toNat := by
  have valid : c.val.toNat.isValidChar := c.valid
  unfold Nat.isValidChar at valid
  have byte {n : Nat} (small : n < 256) : (UInt8.ofNat n).toNat = n :=
    UInt8.toNat_ofNat_of_lt' small
  rw [String.utf8EncodeChar]
  generalize c.val.toNat = v at valid
  split
  · have first := byte (n := v) (by omega)
    generalize UInt8.ofNat v = a at first
    rw [← first]
    exact .one (UInt8.lt_iff_toNat_lt.2 (show a.toNat < 128 by omega))
  split
  · have first := byte (n := v / 64 % 32 + 192) (by omega)
    have last := byte (n := v % 64 + 128) (by omega)
    generalize UInt8.ofNat (v / 64 % 32 + 192) = a at first
    generalize UInt8.ofNat (v % 64 + 128) = b at last
    have value : v = (a.toNat % 32) * 64 + payload b := by unfold payload; omega
    rw [value]
    refine .two ⟨UInt8.le_iff_toNat_le.2 ?_, UInt8.le_iff_toNat_le.2 ?_⟩ (isContinuation_iff.2 ?_)
    · exact show 194 ≤ a.toNat by omega
    · exact show a.toNat ≤ 223 by omega
    · omega
  split
  · have first := byte (n := v / 4096 % 16 + 224) (by omega)
    have next := byte (n := v / 64 % 64 + 128) (by omega)
    have last := byte (n := v % 64 + 128) (by omega)
    generalize UInt8.ofNat (v / 4096 % 16 + 224) = a at first
    generalize UInt8.ofNat (v / 64 % 64 + 128) = b at next
    generalize UInt8.ofNat (v % 64 + 128) = c at last
    have value : v = (a.toNat % 16) * 4096 + payload b * 64 + payload c := by unfold payload; omega
    rw [value]
    refine .three ⟨UInt8.le_iff_toNat_le.2 ?_, UInt8.le_iff_toNat_le.2 ?_⟩ (isSecond_iff.2 ?_)
      (isContinuation_iff.2 ?_)
    · exact show 224 ≤ a.toNat by omega
    · exact show a.toNat ≤ 239 by omega
    · omega
    · omega
  · have first := byte (n := v / 262144 % 8 + 240) (by omega)
    have next := byte (n := v / 4096 % 64 + 128) (by omega)
    have further := byte (n := v / 64 % 64 + 128) (by omega)
    have last := byte (n := v % 64 + 128) (by omega)
    generalize UInt8.ofNat (v / 262144 % 8 + 240) = a at first
    generalize UInt8.ofNat (v / 4096 % 64 + 128) = b at next
    generalize UInt8.ofNat (v / 64 % 64 + 128) = c at further
    generalize UInt8.ofNat (v % 64 + 128) = d at last
    have value : v = (a.toNat % 8) * 262144 + payload b * 4096 + payload c * 64 + payload d := by
      unfold payload; omega
    rw [value]
    refine .four ⟨UInt8.le_iff_toNat_le.2 ?_, UInt8.le_iff_toNat_le.2 ?_⟩ (isSecond_iff.2 ?_)
      (isContinuation_iff.2 ?_) (isContinuation_iff.2 ?_)
    · exact show 240 ≤ a.toNat by omega
    · exact show a.toNat ≤ 244 by omega
    · omega
    · omega
    · omega

/-- A character that is encoded is read, and reading goes on behind it. -/
theorem decodeFrom_of_encodes (encodes : Encodes bytes n) (sound : Nat) (rest : List UInt8) :
    decodeFrom sound (bytes ++ rest) =
      (decodeFrom (sound + bytes.length) rest).map (Char.ofNat n :: ·) := by
  cases encodes with
  | one lead =>
    rw [List.singleton_append, decodeFrom.eq_def]
    dsimp only
    rw [if_pos lead]
    rfl
  | @two a b lead second =>
    have low : 194 ≤ a.toNat := UInt8.le_iff_toNat_le.1 lead.1
    have high : a.toNat ≤ 223 := UInt8.le_iff_toNat_le.1 lead.2
    have large : ¬ a < 0x80 := not_ascii (by omega)
    have range : (decide (0xC2 ≤ a) && decide (a ≤ 0xDF)) = true := by simpa using lead
    rw [List.cons_append, List.singleton_append, decodeFrom.eq_def]
    dsimp only
    rw [if_neg large, if_pos range, if_pos second]
    rfl
  | @three a b c lead second third =>
    have low : 224 ≤ a.toNat := UInt8.le_iff_toNat_le.1 lead.1
    have high : a.toNat ≤ 239 := UInt8.le_iff_toNat_le.1 lead.2
    have large : ¬ a < 0x80 := not_ascii (by omega)
    have range : (decide (0xE0 ≤ a) && decide (a ≤ 0xEF)) = true := by simpa using lead
    rw [List.cons_append, List.cons_append, List.singleton_append, decodeFrom.eq_def]
    dsimp only
    rw [if_neg large, if_neg (mt inRange_iff.1 (by simp; omega)),
      if_pos range, second, if_neg (by decide), if_pos third]
    rfl
  | @four a b c d lead second third fourth =>
    have low : 240 ≤ a.toNat := UInt8.le_iff_toNat_le.1 lead.1
    have high : a.toNat ≤ 244 := UInt8.le_iff_toNat_le.1 lead.2
    have large : ¬ a < 0x80 := not_ascii (by omega)
    have range : (decide (0xF0 ≤ a) && decide (a ≤ 0xF4)) = true := by simpa using lead
    rw [List.cons_append, List.cons_append, List.cons_append, List.singleton_append,
      decodeFrom.eq_def]
    dsimp only
    rw [if_neg large, if_neg (mt inRange_iff.1 (by simp; omega)),
      if_neg (mt inRange_iff.1 (by simp; omega)), if_pos range, second,
      if_neg (by decide), third, if_neg (by decide), if_pos fourth]
    rfl

/-- Characters are read from the bytes that encode them. -/
theorem decodeFrom_flatMap (sound : Nat) (cs : List Char) :
    decodeFrom sound (cs.flatMap String.utf8EncodeChar) = .ok cs := by
  induction cs generalizing sound with
  | nil => rfl
  | cons c rest ih =>
    rw [List.flatMap_cons, decodeFrom_of_encodes (encodes_utf8EncodeChar c), ih]
    change Except.ok (Char.ofNat c.toNat :: rest) = _
    rw [Char.ofNat_toNat]

theorem exists_of_read {c : Char} (read : (do return c :: (← decodeFrom sound rest)) = .ok cs) :
    ∃ more, decodeFrom sound rest = .ok more ∧ cs = c :: more := by
  cases later : decodeFrom sound rest with
  | error e =>
    rw [later] at read
    cases read
  | ok more =>
    rw [later] at read
    cases read
    exact ⟨more, rfl, rfl⟩

/-- Characters that are read are encoded by the bytes. -/
theorem flatMap_of_decodeFrom (read : decodeFrom sound bytes = .ok cs) :
    cs.flatMap String.utf8EncodeChar = bytes := by
  -- What is read of the first bytes is put in front of what is read behind them.
  have glue {front : List UInt8} {n sound : Nat} {rest : List UInt8} {cs : List Char}
      (encodes : Encodes front n)
      (read : (do return Char.ofNat n :: (← decodeFrom sound rest)) = .ok cs)
      (ih : ∀ {more}, decodeFrom sound rest = .ok more → more.flatMap String.utf8EncodeChar = rest) :
      cs.flatMap String.utf8EncodeChar = front ++ rest := by
    obtain ⟨more, later, rfl⟩ := exists_of_read read
    rw [List.flatMap_cons, utf8EncodeChar_of_encodes encodes, ih later]
  fun_induction decodeFrom sound bytes generalizing cs with
  | case1 =>
    cases read
    rfl
  | case2 sound a rest lead ih => exact glue (.one lead) read ih
  | case4 sound a large lead b rest second ih =>
    exact glue (.two (by simpa using lead) second) read ih
  | case9 sound a large other lead b second c rest third ih =>
    exact glue (.three (by simpa using lead) (by simpa using second) third) read ih
  | case16 sound a large other others lead b second c third d rest fourth ih =>
    exact glue (.four (by simpa using lead) (by simpa using second) (by simpa using third) fourth)
      read ih
  | _ => cases read

theorem toList_loop (bytes : ByteArray) (i : Nat) (r : List UInt8) :
    ByteArray.toList.loop bytes i r = r.reverse ++ bytes.data.toList.drop i := by
  fun_induction ByteArray.toList.loop bytes i r with
  | case1 i r inside ih =>
    have within : i < bytes.data.toList.length := by simpa using inside
    have here : bytes.get! i = bytes.data.toList[i] := by
      change bytes.data[i]! = _
      rw [getElem!_pos bytes.data i (by simpa using inside), Array.getElem_toList]
    rw [ih, here, List.drop_eq_getElem_cons within, List.reverse_cons, List.append_assoc,
      List.singleton_append]
  | case2 i r outside =>
    rw [List.drop_eq_nil_of_le (by simpa using Nat.le_of_not_lt outside), List.append_nil]

theorem toList_eq_data (bytes : ByteArray) : bytes.toList = bytes.data.toList := by
  rw [ByteArray.toList, toList_loop]
  rfl

/-- A text is encoded character by character. -/
theorem encode_eq_flatMap (text : String) :
    encode text = text.toList.flatMap String.utf8EncodeChar := by
  have bytes : text.toByteArray = (text.toList.flatMap String.utf8EncodeChar).toByteArray := by
    rw [← List.utf8Encode, ← String.toByteArray_ofList, String.ofList_toList]
  rw [encode, String.toUTF8, bytes, toList_eq_data, List.toList_data_toByteArray]

theorem length_encode (text : String) : (encode text).length = text.utf8ByteSize := by
  rw [encode, toList_eq_data, Array.length_toList]
  rfl

/-- Bytes are read as a text exactly if they encode it. -/
theorem decode_eq_ok_iff {text : String} : decode bytes = .ok text ↔ encode text = bytes := by
  rw [encode_eq_flatMap]
  constructor
  · intro read
    cases found : decodeFrom 0 bytes with
    | error e =>
      rw [decode, found] at read
      cases read
    | ok cs =>
      rw [decode, found] at read
      cases read
      rw [String.toList_ofList]
      exact flatMap_of_decodeFrom found
  · rintro rfl
    rw [decode, decodeFrom_flatMap]
    change Except.ok (String.ofList text.toList) = _
    rw [String.ofList_toList]

end RelaxDoc.Text
