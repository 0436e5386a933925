import MultiDistributor.Lib.ByteString

/-!
# Fixed-width binary layouts

A layout writes a value into a fixed number of bytes and reads it back; that the two are
inverse is part of the layout. Layouts are put side by side with `pair` and renamed with
`via`, so the layout of a record is built from those of its fields, and the position of a
field is the sum of the widths before it.
-/
namespace MultiDistributor.Lib.ByteString

/-- The number with the given base-256 digits, least significant first. -/
def ofLeBytes : Bytes → Nat
  | [] => 0
  | byte :: rest => byte.toNat + 256 * ofLeBytes rest

theorem ofLeBytes_leBytes {width n : Nat} (fits : n < 256 ^ width) :
    ofLeBytes (leBytes width n) = n := by
  induction width generalizing n with
  | zero =>
    rw [Nat.pow_zero] at fits
    rw [leBytes, ofLeBytes]
    omega
  | succ width ih =>
    have high : n / 256 < 256 ^ width := by
      rw [Nat.pow_succ] at fits
      exact Nat.div_lt_of_lt_mul (by omega)
    rw [leBytes, ofLeBytes, ih high, UInt8.toNat_ofNat']
    omega

theorem ofLeBytes_lt (bytes : Bytes) : ofLeBytes bytes < 256 ^ bytes.length := by
  induction bytes with
  | nil => exact Nat.one_pos
  | cons byte rest ih =>
    have digit := byte.toNat_lt
    rw [ofLeBytes, List.length_cons, Nat.pow_succ]
    omega

theorem leBytes_ofLeBytes (bytes : Bytes) : leBytes bytes.length (ofLeBytes bytes) = bytes := by
  induction bytes with
  | nil => rfl
  | cons byte rest ih =>
    have digit := byte.toNat_lt
    have low : UInt8.ofNat (byte.toNat + 256 * ofLeBytes rest) = byte := by
      apply UInt8.toNat_inj.mp
      rw [UInt8.toNat_ofNat']
      omega
    have high : (byte.toNat + 256 * ofLeBytes rest) / 256 = ofLeBytes rest := by omega
    rw [List.length_cons, ofLeBytes, leBytes, low, high, ih]

end MultiDistributor.Lib.ByteString

namespace MultiDistributor.Lib
open ByteString

/-- A value in a fixed number of bytes. -/
structure FixedLayout (α : Type) where
  width : Nat
  encode : α → Bytes
  /-- Reads `width` bytes, which need not be the encoding of anything. -/
  read : Bytes → Option α
  encode_length : ∀ value, (encode value).length = width
  read_encode : ∀ value, read (encode value) = some value
  encode_read : ∀ {bytes value}, bytes.length = width → read bytes = some value →
    encode value = bytes

namespace FixedLayout
variable {α β : Type}

/-- Reads a value off the front of a byte string. -/
def decode (layout : FixedLayout α) (bytes : Bytes) : Option (α × Bytes) :=
  if layout.width ≤ bytes.length then
    (layout.read (bytes.take layout.width)).map fun value => (value, bytes.drop layout.width)
  else none

/-- Decoding inverts encoding, and accepts nothing else. -/
theorem decode_eq_some_iff (layout : FixedLayout α) {bytes rest : Bytes} {value : α} :
    layout.decode bytes = some (value, rest) ↔ bytes = layout.encode value ++ rest := by
  unfold decode
  constructor
  · intro success
    split at success
    · next enough =>
      obtain ⟨found, reads, result⟩ := Option.map_eq_some_iff.mp success
      obtain ⟨rfl, rfl⟩ := Prod.mk.inj result
      have front := layout.encode_read (List.length_take_of_le enough) reads
      rw [front, List.take_append_drop]
    · cases success
  · rintro rfl
    have size := layout.encode_length value
    rw [if_pos (by rw [List.length_append]; omega), List.take_left' size, List.drop_left' size,
      layout.read_encode]
    rfl

theorem decode_encode (layout : FixedLayout α) (value : α) (rest : Bytes) :
    layout.decode (layout.encode value ++ rest) = some (value, rest) :=
  layout.decode_eq_some_iff.mpr rfl

/-! ### Elementary layouts -/

def byte : FixedLayout UInt8 where
  width := 1
  encode value := [value]
  read bytes := bytes.head?
  encode_length _ := rfl
  read_encode _ := rfl
  encode_read {bytes value} size reads := by
    obtain ⟨single, rfl⟩ := List.length_eq_one_iff.mp size
    cases reads
    rfl

/-- Two of the 256 values of a byte are Booleans. -/
def bool : FixedLayout Bool where
  width := 1
  encode value := [if value then 1 else 0]
  read bytes := if bytes = [0] then some false else if bytes = [1] then some true else none
  encode_length _ := rfl
  read_encode value := by cases value <;> rfl
  encode_read {bytes value} _ reads := by
    split at reads
    · next zero =>
      cases reads
      exact zero.symm
    · split at reads
      · next one =>
        cases reads
        exact one.symm
      · cases reads

def word : FixedLayout UInt64 where
  width := 8
  encode := toLeBytes
  read bytes := some (UInt64.ofNat (ofLeBytes bytes))
  encode_length := toLeBytes_length
  read_encode value := by
    rw [toLeBytes, ofLeBytes_leBytes value.toNat_lt, UInt64.ofNat_toNat]
  encode_read {bytes value} size reads := by
    cases reads
    have bound : ofLeBytes bytes < 2 ^ 64 := by
      have digits := ofLeBytes_lt bytes
      rw [size] at digits
      exact digits
    rw [toLeBytes, UInt64.toNat_ofNat', Nat.mod_eq_of_lt bound, ← size, leBytes_ofLeBytes]

def array32 : FixedLayout Bytes32 where
  width := 32
  encode value := value.bytes
  read bytes := if size : bytes.length = 32 then some ⟨bytes, size⟩ else none
  encode_length value := value.length_eq
  read_encode value := by rw [dif_pos value.length_eq]
  encode_read {bytes value} size reads := by
    rw [dif_pos size] at reads
    cases reads
    rfl

/-! ### Records -/

/-- Two values one after the other. -/
def pair (first : FixedLayout α) (second : FixedLayout β) : FixedLayout (α × β) where
  width := first.width + second.width
  encode value := first.encode value.1 ++ second.encode value.2
  read bytes := do
    let a ← first.read (bytes.take first.width)
    let b ← second.read (bytes.drop first.width)
    return (a, b)
  encode_length value := by rw [List.length_append, first.encode_length, second.encode_length]
  read_encode value := by
    rw [List.take_left' (first.encode_length _), List.drop_left' (first.encode_length _),
      first.read_encode, second.read_encode]
    rfl
  encode_read {bytes value} size reads := by
    obtain ⟨a, readsFirst, reads⟩ := Option.bind_eq_some_iff.mp reads
    obtain ⟨b, readsSecond, reads⟩ := Option.bind_eq_some_iff.mp reads
    cases reads
    have front := first.encode_read (List.length_take_of_le (by omega)) readsFirst
    have back := second.encode_read (by rw [List.length_drop]; omega) readsSecond
    rw [front, back, List.take_append_drop]

/-- The same bytes under another type of values. -/
def via (layout : FixedLayout α) (make : α → β) (fields : β → α)
    (make_fields : ∀ value, make (fields value) = value)
    (fields_make : ∀ value, fields (make value) = value) : FixedLayout β where
  width := layout.width
  encode value := layout.encode (fields value)
  read bytes := (layout.read bytes).map make
  encode_length value := layout.encode_length _
  read_encode value := by rw [layout.read_encode, Option.map_some, make_fields]
  encode_read {bytes value} size reads := by
    obtain ⟨found, readsFields, rfl⟩ := Option.map_eq_some_iff.mp reads
    rw [fields_make]
    exact layout.encode_read size readsFields

/-- Signed words are their two's complement. -/
def signedWord : FixedLayout Int64 :=
  word.via UInt64.toInt64 Int64.toUInt64 (fun _ => rfl) (fun _ => rfl)

end FixedLayout

end MultiDistributor.Lib
