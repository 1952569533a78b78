import CompliancePrimitives.Foundation.Encoding
import CompliancePrimitives.Indexer.Xdr

/-!
# Text survives

The base64 reader and the text decoder of the indexer give back what was encoded:
`base64ToBytes_base64Encode` for every byte string, and `textDecode_utf8` for every text that does
not start with a byte order mark, which the decoder drops.

The text decoder works on one byte at a time, so the argument is about one character: between two
characters, reading the bytes of a character yields it and ends between two characters
(`utf8Chars_utf8EncodeChar`).

Each of the two undoes a standard encoding that the sender uses and the indexer does not have
(`Foundation/Encoding.lean`). The base64 reader takes four characters at a time and drops the
padding first, so the argument is about three bytes and a rest of one or two.
-/

namespace Indexer

open Encoding Soroban

/-! ### UTF-8 -/

/-- The character a text decoder takes for a mark when a text starts with it. -/
def byteOrderMark : Char := Char.ofNat 0xFEFF

/-- **A text without a leading byte order mark.** -/
def Unmarked (s : String) : Prop := s.toList.head? ≠ some byteOrderMark

instance (s : String) : Decidable (Unmarked s) :=
  inferInstanceAs (Decidable (s.toList.head? ≠ some byteOrderMark))

theorem utf8Chars_cons (q : Utf8State) (b : UInt8) (bytes : Bytes) :
    utf8Chars q (b :: bytes) = (utf8Step q b.toNat).1 ++ utf8Chars (utf8Step q b.toNat).2 bytes :=
  rfl

theorem utf8Step_between (b : ℕ) : utf8Step .between b = utf8Lead b := rfl

/-- A byte that continues a character adds six bits to it. -/
theorem utf8Step_continue {q : Utf8State} {b : ℕ} (hneeded : q.needed ≠ 0) (hlower : q.lower ≤ b)
    (hupper : b ≤ q.upper) :
    utf8Step q b =
      if q.needed = 1 then ([Char.ofNat (q.codePoint * 0x40 + b % 0x40)], .between)
      else ([], ⟨q.codePoint * 0x40 + b % 0x40, q.needed - 1, 0x80, 0xBF⟩) := by
  have hrange : ¬(b < q.lower ∨ q.upper < b) := by omega
  rw [utf8Step, if_neg hneeded, if_neg hrange]

/-- The last byte of a character completes it. -/
theorem utf8Chars_last {codePoint lower upper b n : ℕ} (rest : Bytes) (hb : b < 256)
    (hlower : lower ≤ b) (hupper : b ≤ upper) (hn : codePoint * 0x40 + b % 0x40 = n) :
    utf8Chars ⟨codePoint, 1, lower, upper⟩ (.ofNat b :: rest) =
      Char.ofNat n :: utf8Chars .between rest := by
  rw [utf8Chars_cons, UInt8.toNat_ofNat_of_lt' hb, utf8Step_continue Nat.one_ne_zero hlower hupper,
    if_pos rfl, ← hn]
  rfl

/-- A byte before the last is kept for it. -/
theorem utf8Chars_middle {codePoint needed lower upper b n : ℕ} (rest : Bytes) (hb : b < 256)
    (hlower : lower ≤ b) (hupper : b ≤ upper) (hn : codePoint * 0x40 + b % 0x40 = n) :
    utf8Chars ⟨codePoint, needed + 2, lower, upper⟩ (.ofNat b :: rest) =
      utf8Chars ⟨n, needed + 1, 0x80, 0xBF⟩ rest := by
  rw [utf8Chars_cons, UInt8.toNat_ofNat_of_lt' hb,
    utf8Step_continue (Nat.succ_ne_zero _) hlower hupper, if_neg (by simp), ← hn]
  rfl

/-- The first byte of a character, by what it announces. -/
theorem utf8Chars_lead {b : ℕ} (rest : Bytes) (hb : b < 256) :
    utf8Chars .between (.ofNat b :: rest) =
      (utf8Lead b).1 ++ utf8Chars (utf8Lead b).2 rest := by
  rw [utf8Chars_cons, UInt8.toNat_ofNat_of_lt' hb]
  rfl

/-- **One character.** Reading its bytes yields it. -/
theorem utf8Chars_utf8EncodeChar (c : Char) (rest : Bytes) :
    utf8Chars .between (String.utf8EncodeChar c ++ rest) = c :: utf8Chars .between rest := by
  have hc : Char.ofNat c.toNat = c := Char.ofNat_toNat c
  have hvalid := toNat_range c
  rcases utf8EncodeChar_cases c with ⟨hle, heq⟩ | ⟨hge, hle, heq⟩ | ⟨hge, hle, heq⟩ | ⟨hge, heq⟩
  · rw [heq, List.cons_append, utf8Chars_lead _ (by omega), utf8Lead, if_pos hle, hc]
    rfl
  · have hlead : utf8Lead (c.toNat / 64 % 32 + 192) =
        ([], ⟨(c.toNat / 64 % 32 + 192) % 0x20, 1, 0x80, 0xBF⟩) := by
      rw [utf8Lead, if_neg (by omega), if_pos (by omega)]
    simp only [heq, List.cons_append, List.nil_append]
    rw [utf8Chars_lead _ (by omega), hlead, List.nil_append]
    rw [utf8Chars_last (n := c.toNat) rest (by omega) (by omega) (by omega) (by omega), hc]
  · have hlead : utf8Lead (c.toNat / 4096 % 16 + 224) =
        ([], ⟨(c.toNat / 4096 % 16 + 224) % 0x10, 2,
          if c.toNat / 4096 % 16 + 224 = 0xE0 then 0xA0 else 0x80,
          if c.toNat / 4096 % 16 + 224 = 0xED then 0x9F else 0xBF⟩) := by
      rw [utf8Lead, if_neg (by omega), if_neg (by omega), if_pos (by omega)]
    simp only [heq, List.cons_append, List.nil_append]
    rw [utf8Chars_lead _ (by omega), hlead, List.nil_append,
      utf8Chars_middle (b := c.toNat / 64 % 64 + 128) _ (by omega) _ _ rfl]
    · rw [utf8Chars_last (n := c.toNat) rest (by omega) (by omega) (by omega) (by omega), hc]
    -- the first continuation byte rules out what two bytes could say, and the surrogates
    · split_ifs <;> omega
    · split_ifs <;> omega
  · have hlead : utf8Lead (c.toNat / 262144 % 8 + 240) =
        ([], ⟨(c.toNat / 262144 % 8 + 240) % 0x08, 3,
          if c.toNat / 262144 % 8 + 240 = 0xF0 then 0x90 else 0x80,
          if c.toNat / 262144 % 8 + 240 = 0xF4 then 0x8F else 0xBF⟩) := by
      rw [utf8Lead, if_neg (by omega), if_neg (by omega), if_neg (by omega), if_pos (by omega)]
    simp only [heq, List.cons_append, List.nil_append]
    rw [utf8Chars_lead _ (by omega), hlead, List.nil_append,
      utf8Chars_middle (b := c.toNat / 4096 % 64 + 128) _ (by omega) _ _ rfl,
      utf8Chars_middle (b := c.toNat / 64 % 64 + 128) _ (by omega) (by omega) (by omega) rfl]
    · rw [utf8Chars_last (n := c.toNat) rest (by omega) (by omega) (by omega) (by omega), hc]
    -- the first continuation byte rules out what three bytes could say, and what is too large
    · split_ifs <;> omega
    · split_ifs <;> omega

/-- Reading the bytes of a text yields its characters. -/
theorem utf8Chars_utf8 (s : String) : utf8Chars .between (utf8 s) = s.toList := by
  rw [utf8]
  induction s.toList with
  | nil => rfl
  | cons c cs ih => rw [List.flatMap_cons, utf8Chars_utf8EncodeChar, ih]

/-- The three bytes of a byte order mark. -/
theorem utf8Chars_byteOrderMark (rest : Bytes) :
    utf8Chars .between (0xEF :: 0xBB :: 0xBF :: rest) = byteOrderMark :: utf8Chars .between rest :=
  rfl

/-- **Text survives**, unless it starts with a byte order mark. -/
theorem textDecode_utf8 {s : String} (h : Unmarked s) : textDecode (utf8 s) = s := by
  unfold textDecode
  split
  next rest heq =>
    refine absurd ?_ h
    rw [← utf8Chars_utf8, heq, utf8Chars_byteOrderMark, List.head?_cons]
  next => rw [utf8Chars_utf8, String.ofList_toList]

/-- Bytes of one character each. -/
theorem utf8Chars_ascii {bytes : Bytes} (h : ∀ b ∈ bytes, b.toNat ≤ 0x7F) :
    utf8Chars .between bytes = bytes.map fun b ↦ Char.ofNat b.toNat := by
  induction bytes with
  | nil => rfl
  | cons b bytes ih =>
    obtain ⟨hb, hbytes⟩ := List.forall_mem_cons.1 h
    rw [utf8Chars_cons, utf8Step_between, utf8Lead, if_pos hb, List.map_cons, ← ih hbytes]
    rfl

theorem toList_textDecode_ascii {bytes : Bytes} (h : ∀ b ∈ bytes, b.toNat ≤ 0x7F) :
    (textDecode bytes).toList = bytes.map fun b ↦ Char.ofNat b.toNat := by
  unfold textDecode
  split
  next rest => exact absurd (h 0xEF List.mem_cons_self) (by decide)
  next => rw [String.toList_ofList, utf8Chars_ascii h]

/-- A text of single bytes determines them. -/
theorem textDecode_ascii_inj {bytes bytes' : Bytes} (h : ∀ b ∈ bytes, b.toNat ≤ 0x7F)
    (h' : ∀ b ∈ bytes', b.toNat ≤ 0x7F) (heq : textDecode bytes = textDecode bytes') :
    bytes = bytes' := by
  have hchars := congrArg String.toList heq
  rw [toList_textDecode_ascii h, toList_textDecode_ascii h'] at hchars
  have hbyte : ∀ b : UInt8, (Char.ofNat b.toNat).toNat = b.toNat := by decide +kernel
  have hback : ∀ bytes : Bytes,
      (bytes.map fun b ↦ Char.ofNat b.toNat).map (fun c ↦ UInt8.ofNat c.toNat) = bytes := by
    intro bytes
    rw [List.map_map]
    refine (List.map_congr_left fun b _ ↦ ?_).trans (List.map_id bytes)
    rw [Function.comp_apply, hbyte, UInt8.ofNat_toNat]
    rfl
  rw [← hback bytes, hchars, hback]

/-! ### Base64 -/

/-- The digits are read back, and none of them is white space or padding. -/
theorem base64Value_base64Digit {n : ℕ} (h : n < 64) :
    base64Value (base64Digit n) = some n ∧ isAsciiWhitespace (base64Digit n) = false ∧
      base64Digit n ≠ '=' := by
  revert n
  decide +kernel

/-- The groups of six bits of a byte string are put together again. -/
theorem sextetBytes_sextets : ∀ bytes : Bytes, sextetBytes (sextets bytes) = some bytes
  | a :: b :: c :: rest => by
    have ha := a.toNat_lt
    have hb := b.toNat_lt
    have hc := c.toNat_lt
    have h₁ : UInt8.ofNat (a.toNat / 4 * 4 + (a.toNat % 4 * 16 + b.toNat / 16) / 16) = a :=
      UInt8.toNat_inj.1 (by rw [UInt8.toNat_ofNat']; omega)
    have h₂ : UInt8.ofNat ((a.toNat % 4 * 16 + b.toNat / 16) * 16 +
        (b.toNat % 16 * 4 + c.toNat / 64) / 4) = b :=
      UInt8.toNat_inj.1 (by rw [UInt8.toNat_ofNat']; omega)
    have h₃ : UInt8.ofNat ((b.toNat % 16 * 4 + c.toNat / 64) * 64 + c.toNat % 64) = c :=
      UInt8.toNat_inj.1 (by rw [UInt8.toNat_ofNat']; omega)
    rw [sextets, sextetBytes, sextetBytes_sextets rest, h₁, h₂, h₃]
    rfl
  | [a, b] => by
    have ha := a.toNat_lt
    have hb := b.toNat_lt
    have h₁ : UInt8.ofNat (a.toNat / 4 * 4 + (a.toNat % 4 * 16 + b.toNat / 16) / 16) = a :=
      UInt8.toNat_inj.1 (by rw [UInt8.toNat_ofNat']; omega)
    have h₂ : UInt8.ofNat ((a.toNat % 4 * 16 + b.toNat / 16) * 16 + b.toNat % 16 * 4 / 4) = b :=
      UInt8.toNat_inj.1 (by rw [UInt8.toNat_ofNat']; omega)
    rw [sextets, sextetBytes, h₁, h₂]
  | [a] => by
    have ha := a.toNat_lt
    have h₁ : UInt8.ofNat (a.toNat / 4 * 4 + a.toNat % 4 * 16 / 16) = a :=
      UInt8.toNat_inj.1 (by rw [UInt8.toNat_ofNat']; omega)
    rw [sextets, sextetBytes, h₁]
  | [] => rfl

/-- Padding a text to a multiple of four characters is undone, unless it needs three of them. -/
theorem stripPadding_append {cs : List Char} (hpad : ∀ c ∈ cs, c ≠ '=')
    (hlength : cs.length % 4 ≠ 1) :
    stripPadding (cs ++ List.replicate ((4 - cs.length % 4) % 4) '=') = cs := by
  have hlast : ∀ rest, cs.reverse ≠ '=' :: rest := by
    intro rest heq
    have hmem : '=' ∈ cs.reverse := heq ▸ List.mem_cons_self
    exact hpad '=' (List.mem_reverse.1 hmem) rfl
  have htotal : (cs ++ List.replicate ((4 - cs.length % 4) % 4) '=').length % 4 = 0 := by
    rw [List.length_append, List.length_replicate]
    omega
  rw [stripPadding, if_pos htotal, List.reverse_append, List.reverse_replicate]
  -- no padding, two characters of it or one; three would mean a single character before
  have hcases : cs.length % 4 = 0 ∨ cs.length % 4 = 2 ∨ cs.length % 4 = 3 := by omega
  rcases hcases with h | h | h
  · have hpadding : List.replicate ((4 - cs.length % 4) % 4) '=' = [] := by rw [h]; rfl
    rw [hpadding, List.nil_append, List.append_nil]
    split
    next rest heq => exact absurd heq (hlast _)
    next rest _ heq => exact absurd heq (hlast _)
    next => rfl
  · have hpadding : List.replicate ((4 - cs.length % 4) % 4) '=' = ['=', '='] := by rw [h]; rfl
    rw [hpadding]
    exact List.reverse_reverse cs
  · have hpadding : List.replicate ((4 - cs.length % 4) % 4) '=' = ['='] := by rw [h]; rfl
    rw [hpadding, List.singleton_append]
    split
    next rest heq => exact absurd (List.cons.inj heq).2 (hlast _)
    next rest _ heq =>
      obtain ⟨-, rfl⟩ := List.cons.inj heq
      exact List.reverse_reverse cs
    next hnone => exact absurd rfl (hnone cs.reverse)

/-- **Bytes survive.** -/
theorem base64ToBytes_base64Encode (bytes : Bytes) :
    base64ToBytes (base64Encode bytes) = some bytes := by
  have hdigit : ∀ c ∈ (sextets bytes).map base64Digit,
      isAsciiWhitespace c = false ∧ c ≠ '=' := by
    intro c hc
    obtain ⟨n, hn, rfl⟩ := List.mem_map.1 hc
    exact (base64Value_base64Digit (lt_of_mem_sextets hn)).2
  have hfilter : (base64Encode bytes).toList.filter (!isAsciiWhitespace ·) =
      (base64Encode bytes).toList := by
    rw [List.filter_eq_self, base64Encode, String.toList_ofList]
    intro c hc
    rcases List.mem_append.1 hc with hc | hc
    · rw [(hdigit c hc).1]
      rfl
    · rw [List.eq_of_mem_replicate hc]
      rfl
  rw [base64ToBytes, hfilter, base64Encode, String.toList_ofList]
  have hlength := length_sextets_mod bytes
  rw [← List.length_map base64Digit] at hlength ⊢
  rw [stripPadding_append (fun c hc ↦ (hdigit c hc).2) hlength,
    mapM_map_eq_some fun n hn ↦ (base64Value_base64Digit (lt_of_mem_sextets hn)).1]
  exact sextetBytes_sextets bytes

end Indexer
