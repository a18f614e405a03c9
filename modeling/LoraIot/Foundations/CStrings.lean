import Mathlib.Data.List.Basic
import Mathlib.Data.List.GetD
import Mathlib.Data.List.TakeWhile

/-!
# Byte arrays and NUL-terminated strings

A C array is the list of its bytes.  A string is what stands in front of the
first zero byte, `overlay` is a `memcpy` into an array, which never changes
its size, and `strncpyBytes` is what `strncpy` stores.
-/

namespace LoraIot.CStrings

/-- The bytes of an ASCII literal, without the terminator. -/
def ascii (text : String) : List UInt8 :=
  text.toList.map fun character => UInt8.ofNat character.toNat

/-- The characters in front of the first NUL. -/
def cstr (bytes : List UInt8) : List UInt8 :=
  bytes.takeWhile (· != 0)

def strlen (bytes : List UInt8) : Nat := (cstr bytes).length

/-- Copy `bytes` into an array at an offset.  What would land behind the end
of the array is not part of the result. -/
def overlay (array : List UInt8) (offset : Nat) (bytes : List UInt8) :
    List UInt8 :=
  array.take offset ++ bytes.take (array.length - offset) ++
    array.drop (offset + bytes.length)

/-- The `size` bytes that `strncpy` stores: at most `size` characters of the
string, padded with zeros. -/
def strncpyBytes (value : List UInt8) (size : Nat) : List UInt8 :=
  (cstr value).take size ++ List.replicate (size - strlen value) 0

/-- A property of bytes, checked number by number. -/
theorem forall_byte {property : UInt8 → Prop}
    (all : ∀ number < 256, property (UInt8.ofNat number)) (byte : UInt8) :
    property byte := by
  have here := all byte.toNat byte.toNat_lt
  rwa [UInt8.ofNat_toNat] at here

/-- `toupper` in the C locale. -/
def toUpper (byte : UInt8) : UInt8 :=
  if 97 ≤ byte ∧ byte ≤ 122 then byte - 32 else byte

/-- `strupr`: the memory from the start of a string, with its characters in
upper case. -/
def strupr (bytes : List UInt8) : List UInt8 :=
  (cstr bytes).map toUpper ++ bytes.drop (strlen bytes)

section Strings

variable {bytes first second : List UInt8}

@[simp]
theorem cstr_nil : cstr [] = [] := rfl

@[simp]
theorem cstr_zero_cons (rest : List UInt8) : cstr (0 :: rest) = [] := rfl

theorem cstr_cons_of_ne {byte : UInt8} (nonzero : byte ≠ 0)
    (rest : List UInt8) : cstr (byte :: rest) = byte :: cstr rest := by
  simp [cstr, nonzero]

theorem zero_notMem_cstr (bytes : List UInt8) : (0 : UInt8) ∉ cstr bytes := by
  intro member
  simpa using List.mem_takeWhile_imp member

theorem cstr_append_of_notMem (noNul : (0 : UInt8) ∉ first)
    (second : List UInt8) : cstr (first ++ second) = first ++ cstr second := by
  apply List.takeWhile_append_of_pos
  intro byte member
  simpa using fun isZero : byte = 0 => noNul (isZero ▸ member)

theorem cstr_eq_self (noNul : (0 : UInt8) ∉ bytes) : cstr bytes = bytes := by
  simpa using cstr_append_of_notMem noNul []

@[simp]
theorem cstr_cstr (bytes : List UInt8) : cstr (cstr bytes) = cstr bytes :=
  cstr_eq_self (zero_notMem_cstr bytes)

theorem cstr_append_of_mem (hasNul : (0 : UInt8) ∈ first)
    (second : List UInt8) : cstr (first ++ second) = cstr first := by
  induction first with
  | nil => simp at hasNul
  | cons byte rest inductionHypothesis =>
      by_cases isZero : byte = 0
      · subst isZero
        rfl
      · have later : (0 : UInt8) ∈ rest := by
          simpa [Ne.symm isZero] using hasNul
        rw [List.cons_append, cstr_cons_of_ne isZero,
          cstr_cons_of_ne isZero, inductionHypothesis later]

@[simp]
theorem strlen_cstr (bytes : List UInt8) :
    strlen (cstr bytes) = strlen bytes := by
  rw [strlen, cstr_cstr, strlen]

theorem strlen_le_append (first second : List UInt8) :
    strlen first ≤ strlen (first ++ second) := by
  by_cases hasNul : (0 : UInt8) ∈ first
  · rw [strlen, strlen, cstr_append_of_mem hasNul]
  · rw [strlen, strlen, cstr_append_of_notMem hasNul, cstr_eq_self hasNul,
      List.length_append]
    omega

theorem zero_mem_take_iff (array : List UInt8) (count : Nat) :
    (0 : UInt8) ∈ array.take count ↔
      (0 : UInt8) ∈ array ∧ strlen array < count := by
  induction array generalizing count with
  | nil => simp
  | cons byte rest inductionHypothesis =>
      cases count with
      | zero => simp
      | succ count =>
          by_cases isZero : byte = 0
          · subst isZero
            simp [strlen]
          · simp [Ne.symm isZero, inductionHypothesis, strlen,
              cstr_cons_of_ne isZero]

theorem strlen_lt_length_iff (array : List UInt8) :
    strlen array < array.length ↔ (0 : UInt8) ∈ array := by
  constructor
  · intro shorter
    by_contra noNul
    rw [strlen, cstr_eq_self noNul] at shorter
    exact Nat.lt_irrefl _ shorter
  · intro hasNul
    rw [← List.take_length (l := array)] at hasNul
    exact ((zero_mem_take_iff array array.length).mp hasNul).2

theorem getD_cstr {array : List UInt8} {index : Nat}
    (inside : index < strlen array) :
    (cstr array).getD index 0 = array.getD index 0 := by
  obtain ⟨tail, shape⟩ : cstr array <+: array := List.takeWhile_prefix _
  have front := List.getD_append (cstr array) tail 0 index inside
  rw [shape] at front
  exact front.symm

/-- The tail of an array behind a prefix without terminator decides how the
string goes on. -/
theorem cstr_splice_iff (array other : List UInt8) (count : Nat) :
    cstr (array.take count ++ other.drop count) = cstr array ↔
      (0 : UInt8) ∈ array.take count ∨
        cstr (array.drop count) = cstr (other.drop count) := by
  have whole : cstr array = cstr (array.take count ++ array.drop count) := by
    rw [List.take_append_drop]
  rw [whole]
  by_cases hasNul : (0 : UInt8) ∈ array.take count
  · rw [cstr_append_of_mem hasNul, cstr_append_of_mem hasNul]
    simp [hasNul]
  · rw [cstr_append_of_notMem hasNul, cstr_append_of_notMem hasNul,
      List.append_cancel_left_eq, eq_comm]
    simp [hasNul]

/-- Overwriting the front of an array with `characters` leaves the string
`characters` exactly when a terminator follows. -/
theorem cstr_append_eq_left_iff {characters : List UInt8}
    (noNul : (0 : UInt8) ∉ characters) (rest : List UInt8) :
    cstr (characters ++ rest) = characters ↔ cstr rest = [] := by
  rw [cstr_append_of_notMem noNul]
  exact List.append_right_eq_self

theorem cstr_eq_nil_iff (bytes : List UInt8) :
    cstr bytes = [] ↔ bytes.headD 0 = 0 := by
  cases bytes with
  | nil => simp
  | cons byte rest =>
      by_cases isZero : byte = 0
      · simp [isZero]
      · simp [isZero, cstr_cons_of_ne isZero]

end Strings

section Upper

theorem toUpper_toUpper (byte : UInt8) :
    toUpper (toUpper byte) = toUpper byte := by
  revert byte
  apply forall_byte
  decide +kernel

theorem toUpper_eq_zero_iff (byte : UInt8) :
    toUpper byte = 0 ↔ byte = 0 := by
  revert byte
  apply forall_byte
  decide +kernel

variable {bytes first : List UInt8}

theorem zero_notMem_map_toUpper (noNul : (0 : UInt8) ∉ bytes) :
    (0 : UInt8) ∉ bytes.map toUpper := by
  intro member
  obtain ⟨byte, listed, isZero⟩ := List.mem_map.mp member
  rw [toUpper_eq_zero_iff] at isZero
  exact noNul (isZero ▸ listed)

@[simp]
theorem strupr_length (bytes : List UInt8) :
    (strupr bytes).length = bytes.length := by
  have shorter := (List.takeWhile_sublist
    (l := bytes) (p := (· != 0))).length_le
  rw [strupr, List.length_append, List.length_map, List.length_drop, strlen,
    cstr]
  omega

/-- What stands behind the characters of a string starts with the
terminator. -/
theorem cstr_drop_strlen (bytes : List UInt8) :
    cstr (bytes.drop (strlen bytes)) = [] := by
  induction bytes with
  | nil => rfl
  | cons byte rest inductionHypothesis =>
      by_cases isZero : byte = 0
      · subst isZero
        rfl
      · rw [strlen, cstr_cons_of_ne isZero, List.length_cons,
          List.drop_succ_cons, ← strlen.eq_1]
        exact inductionHypothesis

@[simp]
theorem cstr_strupr (bytes : List UInt8) :
    cstr (strupr bytes) = (cstr bytes).map toUpper := by
  have noNul := zero_notMem_map_toUpper (zero_notMem_cstr bytes)
  rw [strupr, cstr_append_of_notMem noNul, cstr_drop_strlen,
    List.append_nil]

@[simp]
theorem strlen_strupr (bytes : List UInt8) :
    strlen (strupr bytes) = strlen bytes := by
  rw [strlen, cstr_strupr, List.length_map, strlen]

/-- `strupr` neither adds nor removes a terminator. -/
theorem zero_mem_strupr_iff (bytes : List UInt8) :
    (0 : UInt8) ∈ strupr bytes ↔ (0 : UInt8) ∈ bytes := by
  rw [← strlen_lt_length_iff, ← strlen_lt_length_iff, strlen_strupr,
    strupr_length]

theorem strupr_append_of_mem (hasNul : (0 : UInt8) ∈ first)
    (rest : List UInt8) : strupr (first ++ rest) = strupr first ++ rest := by
  have inside : strlen first ≤ first.length :=
    Nat.le_of_lt ((strlen_lt_length_iff first).mpr hasNul)
  rw [strupr, strlen, cstr_append_of_mem hasNul, ← strlen.eq_1,
    List.drop_append_of_le_length inside, ← List.append_assoc, strupr]

end Upper

/-- Reading `count` bytes from the start of an array, and cutting what was
read behind its end. -/
theorem take_takeD_append (array rest : List UInt8) (count : Nat)
    (default : UInt8) :
    ((array ++ rest).takeD count default).take array.length =
      array.take count := by
  induction array generalizing count with
  | nil => simp
  | cons byte array inductionHypothesis =>
      cases count with
      | zero => rfl
      | succ count =>
          simp [List.takeD, inductionHypothesis]

section Overlay

variable (array bytes : List UInt8) (offset : Nat)

@[simp]
theorem overlay_length :
    (overlay array offset bytes).length = array.length := by
  simp only [overlay, List.length_append, List.length_take, List.length_drop]
  omega

theorem overlay_zero :
    overlay array 0 bytes =
      bytes.take array.length ++ array.drop bytes.length := by
  simp [overlay]

@[simp]
theorem overlay_nil : overlay array offset [] = array := by
  simp [overlay]

variable {array}

/-- What a `memcpy` inside an array leaves of its terminators. -/
theorem zero_mem_overlay_iff (fits : offset + bytes.length ≤ array.length) :
    (0 : UInt8) ∈ overlay array offset bytes ↔
      (0 : UInt8) ∈ bytes ∨ (0 : UInt8) ∈ array.take offset ∨
        (0 : UInt8) ∈ array.drop (offset + bytes.length) := by
  have whole : bytes.take (array.length - offset) = bytes :=
    List.take_of_length_le (by omega)
  rw [overlay, whole, List.mem_append, List.mem_append]
  constructor
  · intro member
    rcases member with (front | copied) | back
    · exact Or.inr (Or.inl front)
    · exact Or.inl copied
    · exact Or.inr (Or.inr back)
  · intro member
    rcases member with copied | front | back
    · exact Or.inl (Or.inr copied)
    · exact Or.inl (Or.inl front)
    · exact Or.inr back

/-- The bytes of an array after a `memcpy` into it. -/
theorem getElem?_overlay {i : Nat} (inside : i < array.length) :
    (overlay array offset bytes)[i]? =
      if offset ≤ i ∧ i < offset + bytes.length then
        bytes[i - offset]?
      else
        array[i]? := by
  simp only [overlay, List.getElem?_append, List.length_append,
    List.length_take, List.getElem?_take, List.getElem?_drop]
  by_cases front : i < offset
  · have beforeOffset : i < min offset array.length := by omega
    have beforeTail :
        i < min offset array.length +
          min (array.length - offset) bytes.length := by omega
    rw [if_pos beforeTail, if_pos beforeOffset, if_pos front,
      if_neg (by omega)]
  · have start : min offset array.length = offset := by omega
    rw [start]
    by_cases copied : i < offset + bytes.length
    · have beforeTail :
          i < offset + min (array.length - offset) bytes.length := by omega
      rw [if_pos beforeTail, if_neg front, if_pos (by omega),
        if_pos ⟨by omega, copied⟩]
    · have inTail :
          ¬ i < offset + min (array.length - offset) bytes.length := by omega
      rw [if_neg inTail, if_neg fun both => copied both.2]
      congr 1
      omega

variable {bytes}

theorem overlay_full (same : bytes.length = array.length) :
    overlay array 0 bytes = bytes := by
  rw [overlay_zero, ← same, List.take_length, same, List.drop_length,
    List.append_nil]

theorem overlay_zero_of_le (fits : bytes.length ≤ array.length) :
    overlay array 0 bytes = bytes ++ array.drop bytes.length := by
  rw [overlay_zero, List.take_of_length_le fits]

theorem overlay_take {other : List UInt8}
    (same : other.length = array.length) (count : Nat) :
    overlay array 0 (other.take count) =
      other.take count ++ array.drop count := by
  have fits : (other.take count).length ≤ array.length := by
    rw [List.length_take, same]
    exact Nat.min_le_right _ _
  rw [overlay_zero_of_le fits, List.length_take, same]
  congr 1
  rcases Nat.le_total count array.length with shorter | longer
  · rw [Nat.min_eq_left shorter]
  · rw [Nat.min_eq_right longer, List.drop_length,
      List.drop_eq_nil_of_le longer]

end Overlay

section Strncpy

variable {value : List UInt8} {size : Nat}

@[simp]
theorem strncpyBytes_length (value : List UInt8) (size : Nat) :
    (strncpyBytes value size).length = size := by
  simp only [strncpyBytes, List.length_append, List.length_take,
    List.length_replicate, ← strlen.eq_1]
  omega

theorem strncpyBytes_of_lt (fits : strlen value < size) :
    strncpyBytes value size =
      cstr value ++ List.replicate (size - strlen value) 0 := by
  rw [strncpyBytes, List.take_of_length_le (Nat.le_of_lt fits)]

theorem zero_mem_strncpyBytes (fits : strlen value < size) :
    (0 : UInt8) ∈ strncpyBytes value size := by
  rw [strncpyBytes_of_lt fits, List.mem_append, List.mem_replicate]
  exact Or.inr ⟨by omega, rfl⟩

/-- `strncpy` terminates what it stores exactly when the string is shorter
than the array. -/
theorem zero_mem_strncpyBytes_iff (value : List UInt8) (size : Nat) :
    (0 : UInt8) ∈ strncpyBytes value size ↔ strlen value < size := by
  constructor
  · intro terminated
    by_contra tooLong
    have noPadding : size - strlen value = 0 := by omega
    rw [strncpyBytes, noPadding, List.replicate_zero, List.append_nil]
      at terminated
    exact zero_notMem_cstr value (List.mem_of_mem_take terminated)
  · exact zero_mem_strncpyBytes

theorem cstr_strncpyBytes (fits : strlen value < size) :
    cstr (strncpyBytes value size) = cstr value := by
  rw [strncpyBytes_of_lt fits,
    cstr_append_of_notMem (zero_notMem_cstr value)]
  obtain ⟨padding, more⟩ : ∃ padding, size - strlen value = padding + 1 :=
    ⟨size - strlen value - 1, by omega⟩
  rw [more, List.replicate_succ, cstr_zero_cons, List.append_nil]

end Strncpy

end LoraIot.CStrings
