import CompliancePrimitives.Foundation.Encoding

/-!
# Base32, bit by bit

A byte string is a stream of bits, the highest bit of every byte first. Base32 cuts the stream into
groups of five, fills the last group up with zeros, and writes every group as one of 32 characters.
Reading takes the bits of all characters and cuts them into bytes again, leaving out what is less
than a byte.

Both are `groups`, at different widths. Cutting a stream into groups keeps it, up to the zeros at
its end (`unpack_groups`), and the numbers a stream was made of are found again at its start
(`groups_unpack`); so regrouping is undone by regrouping back (`groups_regroup`), whatever the two
widths are.

The writers in use take the stream a byte at a time, and keep the bits that are still to be written
as a number. `quintets` is that account of the same groups (`quintets_eq_groups`).
-/

/-! ### Streams of bits -/

namespace BitStream

/-- The low `n` bits of a number, highest first. -/
def bitsOf : (n : ℕ) → ℕ → List Bool
  | 0, _ => []
  | n + 1, x => x.testBit n :: bitsOf n x

/-- The number that bits spell, the first one highest. -/
def ofBits : List Bool → ℕ
  | [] => 0
  | bit :: bits => bit.toNat * 2 ^ bits.length + ofBits bits

/-- The first `count` groups of `n` bits, as numbers. Where the stream has ended the bits are
zeros. -/
def groups (n : ℕ) : (count : ℕ) → List Bool → List ℕ
  | 0, _ => []
  | count + 1, bits => ofBits (bits.takeD n false) :: groups n count (bits.drop n)

/-- The stream of numbers of `n` bits each. -/
def unpack (n : ℕ) (xs : List ℕ) : List Bool := xs.flatMap (bitsOf n)

section

variable {n m count x : ℕ} {bits : List Bool} {xs : List ℕ}

@[simp]
theorem length_bitsOf (n x : ℕ) : (bitsOf n x).length = n := by
  induction n with
  | zero => rfl
  | succ n ih => rw [bitsOf, List.length_cons, ih]

@[simp] theorem length_groups (n count : ℕ) (bits : List Bool) :
    (groups n count bits).length = count := by
  induction count generalizing bits with
  | zero => rfl
  | succ count ih => rw [groups, List.length_cons, ih]

@[simp] theorem unpack_nil (n : ℕ) : unpack n [] = [] := rfl

@[simp] theorem unpack_cons (n x : ℕ) (xs : List ℕ) :
    unpack n (x :: xs) = bitsOf n x ++ unpack n xs := rfl

@[simp]
theorem length_unpack (n : ℕ) (xs : List ℕ) : (unpack n xs).length = n * xs.length := by
  induction xs with
  | nil => rfl
  | cons x xs ih =>
    rw [unpack_cons, List.length_append, length_bitsOf, ih, List.length_cons, Nat.mul_succ,
      Nat.add_comm]

/-- The high bits of a number come first. -/
theorem bitsOf_add (m n x : ℕ) : bitsOf (m + n) x = bitsOf m (x / 2 ^ n) ++ bitsOf n x := by
  induction m with
  | zero => rw [Nat.zero_add, bitsOf, List.nil_append]
  | succ m ih =>
    rw [Nat.succ_add, bitsOf, bitsOf, ih, List.cons_append, Nat.testBit_div_two_pow]

/-- Bits above the low ones do not matter. -/
theorem bitsOf_mod (hle : n ≤ m) (x : ℕ) : bitsOf n (x % 2 ^ m) = bitsOf n x := by
  induction n with
  | zero => rfl
  | succ n ih =>
    rw [bitsOf, bitsOf, ih (by omega), Nat.testBit_mod_two_pow, decide_eq_true (by omega),
      Bool.true_and]

theorem ofBits_lt (bits : List Bool) : ofBits bits < 2 ^ bits.length := by
  induction bits with
  | nil => exact Nat.one_pos
  | cons bit bits ih =>
    rw [ofBits, List.length_cons, Nat.pow_succ]
    cases bit
    · rw [Bool.toNat_false]
      omega
    · rw [Bool.toNat_true]
      omega

theorem ofBits_bitsOf (n x : ℕ) : ofBits (bitsOf n x) = x % 2 ^ n := by
  induction n with
  | zero => rw [Nat.pow_zero, Nat.mod_one]; rfl
  | succ n ih =>
    rw [bitsOf, ofBits, ih, length_bitsOf, Nat.toNat_testBit, Nat.pow_succ, Nat.mod_mul]
    ring

/-- The bits of the number that bits spell are these bits. -/
theorem bitsOf_ofBits (bits : List Bool) : bitsOf bits.length (ofBits bits) = bits := by
  induction bits with
  | nil => rfl
  | cons bit bits ih =>
    have hlt := ofBits_lt bits
    have hhigh : (bit.toNat * 2 ^ bits.length + ofBits bits) / 2 ^ bits.length = bit.toNat := by
      rw [Nat.mul_comm, Nat.mul_add_div (Nat.two_pow_pos _), Nat.div_eq_of_lt hlt, Nat.add_zero]
    have hlow : (bit.toNat * 2 ^ bits.length + ofBits bits) % 2 ^ bits.length = ofBits bits := by
      rw [Nat.mul_comm, Nat.mul_add_mod, Nat.mod_eq_of_lt hlt]
    rw [List.length_cons, Nat.add_comm, bitsOf_add, ofBits, hhigh,
      ← bitsOf_mod (le_refl bits.length), hlow, ih]
    cases bit <;> rfl

/-! ### Cutting and joining -/

theorem lt_of_mem_groups (h : x ∈ groups n count bits) : x < 2 ^ n := by
  induction count generalizing bits with
  | zero => cases h
  | succ count ih =>
    rcases List.mem_cons.1 h with rfl | h
    · exact (ofBits_lt _).trans_eq (congrArg _ (List.takeD_length _ _ _))
    · exact ih h

theorem takeD_add (bits : List Bool) (m n : ℕ) :
    bits.takeD (m + n) false = bits.takeD m false ++ (bits.drop m).takeD n false := by
  induction m generalizing bits with
  | zero => rw [Nat.zero_add, List.takeD_zero, List.nil_append, List.drop_zero]
  | succ m ih =>
    rw [Nat.succ_add, List.takeD_succ, List.takeD_succ, ih, List.drop_tail, List.cons_append]

/-- **Cutting keeps the stream**, up to the zeros that fill it up. -/
theorem unpack_groups (n count : ℕ) (bits : List Bool) :
    unpack n (groups n count bits) = bits.takeD (n * count) false := by
  induction count generalizing bits with
  | zero => rfl
  | succ count ih =>
    have hfirst := bitsOf_ofBits (bits.takeD n false)
    rw [List.takeD_length] at hfirst
    rw [groups, unpack_cons, hfirst, ih, Nat.mul_succ, Nat.add_comm, takeD_add]

/-- A group at the start of a stream. -/
theorem groups_bitsOf (n count x : ℕ) (bits : List Bool) :
    groups n (count + 1) (bitsOf n x ++ bits) = x % 2 ^ n :: groups n count bits := by
  rw [groups, List.takeD_left' (length_bitsOf n x), ofBits_bitsOf,
    List.drop_left' (length_bitsOf n x)]

/-- A group that is the high part of a number. -/
theorem groups_bitsOf_add (n k count x : ℕ) (bits : List Bool) :
    groups n (count + 1) (bitsOf (n + k) x ++ bits) =
      x / 2 ^ k % 2 ^ n :: groups n count (bitsOf k x ++ bits) := by
  rw [bitsOf_add, List.append_assoc, groups_bitsOf]

/-- Zeros at the end of a stream are low bits. -/
theorem takeD_bitsOf (n k x : ℕ) :
    (bitsOf n x).takeD (n + k) false = bitsOf (n + k) (x * 2 ^ k) := by
  have hzeros : bitsOf k (x * 2 ^ k) = List.replicate k false := by
    rw [← bitsOf_mod le_rfl, Nat.mul_mod_left]
    clear x
    induction k with
    | zero => rfl
    | succ k ih => rw [bitsOf, ih, Nat.zero_testBit, List.replicate_succ]
  have hends : (bitsOf n x).drop n = [] := List.drop_eq_nil_of_le (length_bitsOf n x).le
  rw [takeD_add, hends, List.takeD_nil, List.takeD_eq_take _ (length_bitsOf n x).ge,
    List.take_of_length_le (length_bitsOf n x).le, bitsOf_add,
    Nat.mul_div_cancel _ (Nat.two_pow_pos k), hzeros]

/-- **The numbers of a stream are found again**, whatever follows. -/
theorem groups_unpack (hxs : ∀ x ∈ xs, x < 2 ^ n) (bits : List Bool) :
    groups n xs.length (unpack n xs ++ bits) = xs := by
  induction xs with
  | nil => rfl
  | cons x xs ih =>
    obtain ⟨hx, hxs⟩ := List.forall_mem_cons.1 hxs
    rw [List.length_cons, unpack_cons, List.append_assoc, groups_bitsOf, ih hxs,
      Nat.mod_eq_of_lt hx]

/-- **Regrouping is undone by regrouping back**, if no bits were left out. -/
theorem groups_regroup (hxs : ∀ x ∈ xs, x < 2 ^ m) (hroom : m * xs.length ≤ n * count) :
    groups m xs.length (unpack n (groups n count (unpack m xs))) = xs := by
  rw [← length_unpack] at hroom
  obtain ⟨padding, hpadding⟩ := Nat.exists_eq_add_of_le hroom
  have hkept : (unpack m xs).takeD ((unpack m xs).length + padding) false =
      unpack m xs ++ List.replicate padding false := by
    rw [takeD_add, List.takeD_eq_take _ le_rfl, List.take_length, List.drop_length,
      List.takeD_nil]
  rw [unpack_groups, hpadding, hkept, groups_unpack hxs]

end

end BitStream

/-! ### Base32 -/

namespace Base32

open BitStream Encoding

/-- The base32 alphabet. -/
def alphabet : List Char := "ABCDEFGHIJKLMNOPQRSTUVWXYZ234567".toList

/-- The character of a group of five bits. -/
def digit (n : ℕ) : Char := alphabet.getD n 'A'

/-- The group a character stands for: its place in the alphabet. -/
def value (c : Char) : Option ℕ := alphabet.idxOf? c

/-- The stream of a byte string. -/
def stream (data : List UInt8) : List Bool := unpack 8 (data.map UInt8.toNat)

/-- **Base32 without padding**: all bits in groups of five, the last one filled up. -/
def encode (data : List UInt8) : String :=
  String.ofList ((groups 5 ((8 * data.length + 4) / 5) (stream data)).map digit)

/-- The bytes of a base32 text: all its bits in groups of eight, without what is left over. -/
def decode (text : String) : Option (List UInt8) := do
  let quints ← text.toList.mapM value
  pure ((groups 8 (5 * quints.length / 8) (unpack 5 quints)).map UInt8.ofNat)

example : encode [0x66, 0x6F, 0x6F, 0x62, 0x61, 0x72] = "MZXW6YTBOI" := by decide +kernel

theorem value_digit {n : ℕ} (h : n < 32) : value (digit n) = some n := by
  have hall : ∀ n < 32, value (digit n) = some n := by decide +kernel
  exact hall n h

theorem digit_mem (n : ℕ) : digit n ∈ alphabet := by
  rw [digit, List.getD_eq_getElem?_getD]
  cases hget : alphabet[n]? with
  | none => decide
  | some c => exact List.mem_of_getElem? hget

theorem length_encode (data : List UInt8) :
    (encode data).toList.length = (8 * data.length + 4) / 5 := by
  rw [encode, String.toList_ofList, List.length_map, length_groups]

theorem mem_alphabet_of_mem_encode {data : List UInt8} {c : Char} (h : c ∈ (encode data).toList) :
    c ∈ alphabet := by
  rw [encode, String.toList_ofList] at h
  obtain ⟨n, -, rfl⟩ := List.mem_map.1 h
  exact digit_mem n

/-- The first character is that of the high bits of the first byte. -/
theorem head?_encode (byte : UInt8) (data : List UInt8) :
    (encode (byte :: data)).toList.head? = some (digit (byte.toNat / 2 ^ 3 % 2 ^ 5)) := by
  rw [encode, String.toList_ofList, stream, List.map_cons, unpack_cons, List.length_cons,
    show (8 * (data.length + 1) + 4) / 5 = (8 * data.length + 7) / 5 + 1 by omega]
  exact congrArg (fun ns ↦ (List.map digit ns).head?) (groups_bitsOf_add 5 3 _ _ _)

/-- **Reading undoes writing**, for every byte string. -/
theorem decode_encode (data : List UInt8) : decode (encode data) = some data := by
  have hquints : (groups 5 ((8 * data.length + 4) / 5) (stream data)).length =
      (8 * data.length + 4) / 5 := length_groups _ _ _
  have hcount : 5 * ((8 * data.length + 4) / 5) / 8 = (data.map UInt8.toNat).length := by
    rw [List.length_map]
    omega
  have hbytes : ∀ x ∈ data.map UInt8.toNat, x < 2 ^ 8 :=
    List.forall_mem_map.2 fun b _ ↦ b.toNat_lt
  have hroom : 8 * (data.map UInt8.toNat).length ≤ 5 * ((8 * data.length + 4) / 5) := by
    rw [List.length_map]
    omega
  rw [decode, encode, String.toList_ofList,
    mapM_map_eq_some fun n hn ↦ value_digit (lt_of_mem_groups hn)]
  dsimp only [Option.bind_eq_bind, Option.bind_some, Option.pure_def]
  rw [hquints, hcount, stream, groups_regroup hbytes hroom, List.map_map,
    show UInt8.ofNat ∘ UInt8.toNat = id from funext fun b ↦ UInt8.ofNat_toNat, List.map_id]

/-- The text determines the bytes. -/
theorem encode_injective : Function.Injective encode := by
  intro data data' h
  have hdecoded : some data = some data' := by rw [← decode_encode, h, decode_encode]
  exact Option.some.inj hdecoded

/-! ### A byte at a time -/

/-- **The groups of a writer that keeps a number**: the bits still to be written are in front of
the stream. -/
theorem quintets_eq_groups {bits pending : ℕ} (data : List UInt8) (hbits : bits ≤ 4)
    (hpending : pending < 2 ^ bits) :
    quintets bits pending data =
      groups 5 ((bits + 8 * data.length + 4) / 5) (bitsOf bits pending ++ stream data) := by
  induction data generalizing bits pending with
  | nil =>
    rw [quintets]
    split_ifs with hpos
    · have hgroup : ofBits ((bitsOf bits pending).takeD 5 false) = pending * 2 ^ (5 - bits) := by
        have hlt : pending * 2 ^ (5 - bits) < 2 ^ 5 := by interval_cases bits <;> omega
        have hpad := takeD_bitsOf bits (5 - bits) pending
        rw [show bits + (5 - bits) = 5 by omega] at hpad
        rw [hpad, ofBits_bitsOf, Nat.mod_eq_of_lt hlt]
      rw [List.length_nil, show (bits + 8 * 0 + 4) / 5 = 1 by omega, stream, List.map_nil,
        unpack_nil, List.append_nil, groups, hgroup, groups]
    · obtain rfl : bits = 0 := by omega
      rfl
  | cons byte data ih =>
    have hbyte := byte.toNat_lt
    -- the byte goes behind the pending bits, as one number of `bits + 8` bits
    set x := pending * 256 + byte.toNat with hx
    have hstream : bitsOf bits pending ++ stream (byte :: data) =
        bitsOf (bits + 8) x ++ stream data := by
      have hhigh : x / 2 ^ 8 = pending := by omega
      rw [bitsOf_add, hhigh, ← bitsOf_mod le_rfl x, show x % 2 ^ 8 = byte.toNat by omega,
        List.append_assoc]
      rfl
    have hfirst : x / 2 ^ (bits + 3) < 2 ^ 5 := by interval_cases bits <;> omega
    rw [hstream, quintets, List.length_cons, show bits + 8 = 5 + (bits + 3) by omega,
      show (bits + 8 * (data.length + 1) + 4) / 5 =
        (bits + 3 + 8 * data.length + 4) / 5 + 1 by omega,
      groups_bitsOf_add, Nat.mod_eq_of_lt hfirst]
    split_ifs with hfew
    -- one group is written, or two where at least ten bits are pending
    · rw [ih (by omega) (Nat.mod_lt _ (Nat.two_pow_pos _)), bitsOf_mod le_rfl]
    · rw [ih (by omega) (Nat.mod_lt _ (Nat.two_pow_pos _)), bitsOf_mod le_rfl,
        show bits + 3 = 5 + (bits - 2) by omega,
        show (5 + (bits - 2) + 8 * data.length + 4) / 5 =
          (bits - 2 + 8 * data.length + 4) / 5 + 1 by omega, groups_bitsOf_add]
      rfl

end Base32
