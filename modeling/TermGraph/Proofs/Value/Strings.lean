import TermGraph.Proofs.Lists
import TermGraph.Value.Bytes

/-!
# Texts and aggregates of bytes

A text is kept as one integer for each byte of its encoding (`Value.ofString`),
and read back by `Value.string?`.  An integer is read as a byte when it is one
(`Value.byte?_eq_some_iff`), elements as bytes when all of them are
(`Value.bytes?_eq_some_iff`), and bytes as a text when they encode it.  At every
step what is read is exactly what is written, so writing and reading are inverse
to each other, and reading fails for one of three reasons only.
-/

namespace TermGraph.Value

/-- The bytes that encode a text: those of its characters in order. -/
def utf8 (s : String) : List UInt8 := s.toList.flatMap String.utf8EncodeChar

/-- The elements that hold a text. -/
def ofString (s : String) : List Value := ofBytes (utf8 s)

variable {v : Value} {elems : List Value} {bytes : List UInt8} {s : String}

/-- A byte as an integer is the byte. -/
theorem toInt_ofNat_byte (b : UInt8) : (Int64.ofNat b.toNat).toInt = b.toNat := by
  have hbound := b.toNat_lt
  exact Int64.toInt_ofNat_of_lt (by omega)

/-- A byte written as an integer is read as the byte. -/
theorem byte?_ofNat (b : UInt8) : byte? (.integer (Int64.ofNat b.toNat)) = some b := by
  have hbound := b.toNat_lt
  rw [byte?, toInt_ofNat_byte, if_pos (by omega), Int.toNat_natCast, UInt8.ofNat_toNat]

/-- An integer is read as a byte when the byte would be written as it. -/
theorem byte?_eq_some_iff {b : UInt8} : byte? v = some b ↔ v = .integer (Int64.ofNat b.toNat) := by
  constructor
  · intro h
    cases v with
    | integer n =>
      by_cases hrange : 0 ≤ n.toInt ∧ n.toInt ≤ 255
      · rw [byte?, if_pos hrange] at h
        obtain rfl := Option.some.inj h
        have hnat : (UInt8.ofNat n.toInt.toNat).toNat = n.toInt.toNat := by
          rw [UInt8.toNat_ofNat']
          omega
        have hint : (Int64.ofNat n.toInt.toNat).toInt = n.toInt := by
          rw [Int64.toInt_ofNat_of_lt (by omega)]
          omega
        rw [hnat, Int64.toInt_inj.mp hint]
      · rw [byte?, if_neg hrange] at h
        cases h
    | _ => cases h
  · rintro rfl
    exact byte?_ofNat b

/-- Nothing is read as a byte but the integers from 0 to 255. -/
theorem byte?_eq_none_iff :
    byte? v = none ↔
      (∀ n, v ≠ .integer n) ∨ ∃ n, v = .integer n ∧ (n.toInt < 0 ∨ 255 < n.toInt) := by
  cases v with
  | integer n =>
    have hinteger : ¬ ∀ m, Value.integer n ≠ .integer m := fun h => h n rfl
    by_cases hrange : 0 ≤ n.toInt ∧ n.toInt ≤ 255
    · rw [byte?, if_pos hrange]
      constructor
      · intro h
        cases h
      · rintro (h | ⟨m, hm, h⟩)
        · exact absurd h hinteger
        · cases hm
          omega
    · rw [byte?, if_neg hrange]
      exact ⟨fun _ => .inr ⟨n, rfl, by omega⟩, fun _ => rfl⟩
  | _ => exact ⟨fun _ => .inl nofun, fun _ => rfl⟩

/-- Elements are read as bytes when the bytes would be written as them. -/
theorem bytes?_eq_some_iff : bytes? elems = some bytes ↔ elems = ofBytes bytes := by
  rw [bytes?, mapM_eq_some]
  constructor
  · intro h
    induction h with
    | nil => rfl
    | cons hbyte _ ih => rw [ofBytes, List.map_cons, ← ofBytes, ← ih, byte?_eq_some_iff.mp hbyte]
  · rintro rfl
    induction bytes with
    | nil => exact .nil
    | cons b bytes ih => exact .cons (byte?_ofNat b) ih

/-- Elements are read as bytes when each of them is. -/
theorem bytes?_eq_none_iff : bytes? elems = none ↔ ∃ v ∈ elems, byte? v = none := by
  have hsome : (bytes? elems).isSome ↔ ∀ v ∈ elems, (byte? v).isSome := mapM_isSome
  rw [← Option.not_isSome_iff_eq_none, hsome]
  simp

/-- The encoding of a text are the bytes that represent it. -/
theorem toByteArray_eq (s : String) : s.toByteArray = ⟨(utf8 s).toArray⟩ := by
  rw [← String.utf8Encode_toList]
  exact ByteArray.ext List.data_toByteArray

/-- A text is read from the bytes that represent it, and from no others. -/
theorem fromUTF8?_eq_some_iff {b : ByteArray} :
    String.fromUTF8? b = some s ↔ s.toByteArray = b := by
  unfold String.fromUTF8?
  split
  next hvalid =>
    rw [Option.some.injEq, ← String.toByteArray_inj]
    exact eq_comm
  next hinvalid =>
    constructor
    · intro h
      cases h
    · rintro rfl
      exact absurd s.isValidUTF8 hinvalid

/-- **Reading undoes writing and nothing else.** -/
theorem string?_eq_some_iff : string? elems = some s ↔ elems = ofString s := by
  have hbytes : ∀ bytes : List UInt8, s.toByteArray = ⟨bytes.toArray⟩ ↔ bytes = utf8 s := by
    intro bytes
    rw [toByteArray_eq]
    constructor
    · intro h
      exact (List.toArray_inj (congrArg ByteArray.data h)).symm
    · rintro rfl
      rfl
  constructor
  · intro h
    obtain ⟨bytes, hread, htext⟩ := Option.bind_eq_some_iff.mp h
    rw [fromUTF8?_eq_some_iff, hbytes] at htext
    rw [bytes?_eq_some_iff.mp hread, htext, ofString]
  · intro h
    have hread : bytes? elems = some (utf8 s) := bytes?_eq_some_iff.mpr h
    have htext : String.fromUTF8? ⟨(utf8 s).toArray⟩ = some s :=
      fromUTF8?_eq_some_iff.mpr ((hbytes (utf8 s)).mpr rfl)
    exact Option.bind_eq_some_iff.mpr ⟨utf8 s, hread, htext⟩

/-- **Reading fails for three reasons**: an element that is no integer, an integer
that is no byte, or bytes that encode no text. -/
theorem string?_eq_none_iff :
    string? elems = none ↔
      (∃ v ∈ elems, ∀ n, v ≠ .integer n) ∨
        (∃ n, Value.integer n ∈ elems ∧ (n.toInt < 0 ∨ 255 < n.toInt)) ∨
        ∃ bytes, elems = ofBytes bytes ∧ ∀ s, bytes ≠ utf8 s := by
  cases hread : bytes? elems with
  | none =>
    have hfails : string? elems = none := by rw [string?, hread]; rfl
    obtain ⟨v, hv, hbyte⟩ := bytes?_eq_none_iff.mp hread
    refine ⟨fun _ => ?_, fun _ => hfails⟩
    rcases byte?_eq_none_iff.mp hbyte with hkind | ⟨n, rfl, hrange⟩
    · exact .inl ⟨v, hv, hkind⟩
    · exact .inr (.inl ⟨n, hv, hrange⟩)
  | some bytes =>
    have hbyte : ∀ v ∈ elems, byte? v ≠ none := fun v hv h =>
      absurd (bytes?_eq_none_iff.mpr ⟨v, hv, h⟩) (by rw [hread]; nofun)
    constructor
    · intro h
      refine .inr (.inr ⟨bytes, bytes?_eq_some_iff.mp hread, fun s hs => ?_⟩)
      have hsome : string? elems = some s :=
        string?_eq_some_iff.mpr (by rw [bytes?_eq_some_iff.mp hread, hs, ofString])
      rw [h] at hsome
      cases hsome
    · rintro (⟨v, hv, hkind⟩ | ⟨n, hn, hrange⟩ | ⟨others, helems, hinvalid⟩)
      · exact absurd (byte?_eq_none_iff.mpr (.inl hkind)) (hbyte v hv)
      · exact absurd (byte?_eq_none_iff.mpr (.inr ⟨n, rfl, hrange⟩)) (hbyte _ hn)
      · refine Option.eq_none_iff_forall_ne_some.mpr fun s hs => hinvalid s ?_
        have hothers := bytes?_eq_some_iff.mpr helems
        have htext := bytes?_eq_some_iff.mpr (string?_eq_some_iff.mp hs)
        rw [hothers] at htext
        exact Option.some.inj htext

/-- **Texts and their bytes are inverse to each other.**  Elements are read as a
text exactly when they are what the text is written as.  So a text that is
written is read again, what was read is written as the very same elements, and
nothing is read exactly when some element is no integer, or is an integer but no
byte, or the bytes encode no text. -/
theorem strings_inverse (elems : List Value) (s : String) :
    (string? elems = some s ↔ elems = ofString s) ∧
      string? (ofString s) = some s ∧
      (∀ t, string? elems = some t → ofString t = elems) ∧
      (string? elems = none ↔
        (∃ v ∈ elems, ∀ n, v ≠ .integer n) ∨
          (∃ n, Value.integer n ∈ elems ∧ (n.toInt < 0 ∨ 255 < n.toInt)) ∨
          ∃ bytes, elems = ofBytes bytes ∧ ∀ t, bytes ≠ utf8 t) := by
  refine ⟨string?_eq_some_iff, string?_eq_some_iff.mpr rfl, fun t ht => ?_, string?_eq_none_iff⟩
  exact (string?_eq_some_iff.mp ht).symm

/-- A letter of two bytes, the first of them alone, and an integer that is no
byte. -/
example : string? [.integer 97, .integer 195, .integer 169] = some "aé" ∧
    string? [.integer 195] = none ∧ string? [.integer 256] = none := by decide +kernel

end TermGraph.Value
