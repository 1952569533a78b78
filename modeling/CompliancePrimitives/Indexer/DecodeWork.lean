import CompliancePrimitives.Foundation.Tally
import CompliancePrimitives.Indexer.Decoder

/-!
# What decoding costs, and where its data are from

The lengths that vectors, maps and strings claim are chosen by whoever emits an event, and loops run
as often as they say. But every call of `decodeScVal` reads four bytes before it does anything else,
so the bytes that are left bound the calls, and not the lengths: there is no more than one call for
four bytes, and a last one that finds no four bytes and ends everything.

`talliedScVal` is the decoder with its calls counted (`forget_talliedScVal`). The same four bytes
bound the nesting: a decoder that may nest a quarter as deep as there are bytes runs as any deeper
one (`settles_talliedScVal`). And every byte string a value is made from is a part of the buffer
(`FromBuffer`).
-/

namespace Indexer

open Soroban

/-! ### The decoder, its calls counted -/

/-- Reading something, and counting calls. -/
abbrev TalliedReader (α : Type) := Tally DecodeError XdrReader α

/-- `readItems`, counted. -/
def talliedItems (item : TalliedReader ScVal) : ℕ → TalliedReader (List ScVal)
  | 0 => pure []
  | n + 1 => do
    let x ← item
    let xs ← talliedItems item n
    pure (x :: xs)

/-- `readEntries`, counted. -/
def talliedEntries (item : TalliedReader ScVal) :
    ℕ → ℕ → List (String × ScVal) → TalliedReader (List (String × ScVal))
  | _, 0, entries => pure entries
  | i, n + 1, entries => do
    let k ← item
    let v ← item
    talliedEntries item (i + 1) n (mapSet entries (keyStr i k) v)

/-- `decodeScVal`, which counts itself. -/
def talliedScVal : (depth : ℕ) → TalliedReader ScVal
  | 0 => Tally.once Tx.trap
  | depth + 1 => do
    let disc ← Tally.once readU32
    match disc with
    | ScType.bool => Tally.lift do
      let word ← readU32
      pure (.bool (decide (word ≠ 0)))
    | ScType.void => pure .void
    | ScType.symbol => Tally.lift do
      let value ← readString
      pure (.symbol value)
    | ScType.string => Tally.lift do
      let value ← readString
      pure (.string value)
    | ScType.u32 => Tally.lift do
      let value ← readU32
      pure (.u32 value)
    | ScType.i128 => Tally.lift do
      let hi ← readI64
      let lo ← readU64
      pure (.i128 (hi * 2 ^ 64 + lo))
    | ScType.address => Tally.lift readAddress
    | ScType.vec => do
      let present ← Tally.lift readU32
      if present = 0 then pure (.vec [])
      else do
        let len ← Tally.lift readU32
        let items ← talliedItems (talliedScVal depth) len
        pure (.vec items)
    | ScType.map => do
      let present ← Tally.lift readU32
      if present = 0 then pure (.map [])
      else do
        let len ← Tally.lift readU32
        let entries ← talliedEntries (talliedScVal depth) 0 len []
        pure (.map entries)
    | disc => pure (.other disc)

theorem forget_talliedItems (item : TalliedReader ScVal) (n : ℕ) :
    (talliedItems item n).forget = readItems item.forget n := by
  induction n with
  | zero => rfl
  | succ n ih => simp only [talliedItems, readItems, Tally.forget_bind, Tally.forget_pure, ih]

theorem forget_talliedEntries (item : TalliedReader ScVal) (i n : ℕ)
    (entries : List (String × ScVal)) :
    (talliedEntries item i n entries).forget = readEntries item.forget i n entries := by
  induction n generalizing i entries with
  | zero => rfl
  | succ n ih => simp only [talliedEntries, readEntries, Tally.forget_bind, ih]

/-- **Without the count it is the decoder.** -/
theorem forget_talliedScVal (depth : ℕ) : (talliedScVal depth).forget = decodeScVal depth := by
  induction depth with
  | zero => rfl
  | succ depth ih =>
    rw [talliedScVal, decodeScVal, Tally.forget_bind, Tally.forget_once]
    refine congrArg _ (funext fun disc ↦ ?_)
    split
    all_goals
      simp only [Tally.forget_bind, Tally.forget_lift, Tally.forget_pure, forget_talliedItems,
        forget_talliedEntries, ih, apply_ite Tally.forget]

/-! ### What the reads take -/

/-- The bytes that were not read yet. -/
def unread (r : XdrReader) : ℕ := r.bytes.length - r.pos

/-- A read takes `n` bytes, and a range error is all that can happen. -/
abbrev TakesBytes {α : Type} (n : ℕ) (x : Reader α) : Prop := x.Takes unread .range n

theorem takes_takeBytes (n skip : ℕ) : TakesBytes n (takeBytes n skip) where
  of_ok {r bytes r'} h := by
    obtain ⟨hroom, -, rfl⟩ := takeBytes_eq_ok_iff.1 h
    show r.bytes.length - (r.pos + n + skip) + n ≤ r.bytes.length - r.pos
    omega
  of_error h := by
    have hmove : ∀ r : XdrReader, unread { r with pos := r.pos + n + skip } + 0 ≤ unread r := by
      intro r
      show r.bytes.length - (r.pos + n + skip) + 0 ≤ r.bytes.length - r.pos
      omega
    have hsteps : TakesBytes 0 (takeBytes n skip) :=
      Tx.Takes.get.bind fun _ ↦ (Tx.Takes.ensure _).bind fun _ ↦
        (Tx.Takes.modify hmove).bind fun _ ↦ .pure _
    exact hsteps.of_error h

theorem takes_readU32 : TakesBytes 4 readU32 :=
  ((takes_takeBytes 4 0).bind fun _ ↦ .pure _)

theorem takes_readBytes (n : ℕ) : TakesBytes 0 (readBytes n) :=
  (takes_takeBytes n _).mono (Nat.zero_le n)

theorem takes_readString : TakesBytes 0 readString :=
  ((takes_readU32.bind takes_readBytes).bind fun _ ↦ .pure _).mono (Nat.zero_le _)

theorem takes_readAddress : TakesBytes 0 readAddress := by
  have haddress : ∀ render : Bytes → String,
      TakesBytes 0 (do let raw ← readBytes 32; pure (ScVal.address (render raw))) :=
    fun render ↦ (takes_readBytes 32).bind fun _ ↦ .pure _
  refine Tx.Takes.mono (takes_readU32.bind (n := 0) fun addrType ↦ ?_) (Nat.zero_le _)
  split
  · exact (takes_readU32.bind fun _ ↦ haddress encodeG).mono (Nat.zero_le _)
  · exact haddress bufToHex

theorem takes_i128 :
    TakesBytes 0 (do let hi ← readI64; let lo ← readU64; pure (ScVal.i128 (hi * 2 ^ 64 + lo))) := by
  have hhalf : ∀ f : ℕ → ℤ, TakesBytes 8 (do let bytes ← takeBytes 8 0; pure (f (beNat bytes))) :=
    fun f ↦ (takes_takeBytes 8 0).bind fun _ ↦ .pure _
  exact ((hhalf (toSigned 64)).bind fun _ ↦ (hhalf Nat.cast).bind fun _ ↦ .pure _).mono
    (Nat.zero_le _)

/-! ### Calls and levels -/

section

variable {R : ∀ {α : Type}, TalliedReader α → TalliedReader α → Prop}
  (hR : Tally.Compositional unread .range R) {item item' : TalliedReader ScVal}
include hR

theorem related_talliedItems (h : R item item') (n : ℕ) :
    R (talliedItems item n) (talliedItems item' n) := by
  induction n with
  | zero => exact hR.pure _
  | succ n ih => exact hR.bind h fun x ↦ hR.bind ih fun xs ↦ hR.pure _

theorem related_talliedEntries (h : R item item') (i n : ℕ) (entries : List (String × ScVal)) :
    R (talliedEntries item i n entries) (talliedEntries item' i n entries) := by
  induction n generalizing i entries with
  | zero => exact hR.pure _
  | succ n ih => exact hR.bind h fun k ↦ hR.bind h fun v ↦ ih _ _

/-- **What a call does after its first read**, at two depths that are related one level down. -/
theorem related_talliedScVal (depth depth' : ℕ)
    (h : R (talliedScVal depth) (talliedScVal depth')) :
    ∃ k l : ℕ → TalliedReader ScVal, talliedScVal (depth + 1) = Tally.once readU32 >>= k ∧
      talliedScVal (depth' + 1) = Tally.once readU32 >>= l ∧ ∀ disc, R (k disc) (l disc) := by
  refine ⟨_, _, rfl, rfl, fun disc ↦ ?_⟩
  have hword : R (Tally.lift readU32) (Tally.lift readU32) :=
    hR.lift (takes_readU32.mono (Nat.zero_le _))
  split
  · exact hR.lift ((takes_readU32.bind fun _ ↦ .pure _).mono (Nat.zero_le _))
  · exact hR.pure _
  · exact hR.lift (takes_readString.bind fun _ ↦ .pure _)
  · exact hR.lift (takes_readString.bind fun _ ↦ .pure _)
  · exact hR.lift ((takes_readU32.bind fun _ ↦ .pure _).mono (Nat.zero_le _))
  · exact hR.lift takes_i128
  · exact hR.lift takes_readAddress
  · refine hR.bind hword fun present ↦ ?_
    split
    · exact hR.pure _
    · exact hR.bind hword fun len ↦
        hR.bind (related_talliedItems hR h len) fun items ↦ hR.pure _
  · refine hR.bind hword fun present ↦ ?_
    split
    · exact hR.pure _
    · exact hR.bind hword fun len ↦
        hR.bind (related_talliedEntries hR h 0 len []) fun entries ↦ hR.pure _
  · exact hR.pure _

end

/-- **Every call is paid for with four bytes**, except for the last one of a decoding that fails. -/
theorem spends_talliedScVal (depth : ℕ) : (talliedScVal depth).Spends unread 4 := by
  induction depth with
  | zero =>
    refine ⟨fun h ↦ ?_, fun h ↦ ?_⟩
    · cases (Prod.mk.inj h).1
    · rw [← (Prod.mk.inj h).2]
      exact Nat.le_add_left _ _
  | succ depth ih =>
    obtain ⟨k, -, heq, -, hk⟩ :=
      related_talliedScVal (Tally.compositional_spends unread DecodeError.range 4) depth depth ih
    rw [heq]
    exact (Tally.Spends.once takes_readU32).bind hk

-- a vector that claims the greatest number of items there is, and has none
example : (talliedScVal 4).count ⟨[0, 0, 0, 16, 0, 0, 0, 1, 255, 255, 255, 255], 0⟩ = 2 := by
  decide +kernel

/-- **Where less than four bytes for a level are left, more levels make no difference**, and a
range error is all that can happen. -/
theorem settles_talliedScVal (depth more : ℕ) :
    (talliedScVal depth).Settles unread (4 * depth) .range (talliedScVal (depth + more)) := by
  induction depth with
  | zero => exact ⟨fun h ↦ absurd h (Nat.not_lt_zero _), fun h ↦ absurd h (Nat.not_lt_zero _)⟩
  | succ depth ih =>
    obtain ⟨k, l, heq, heq', hk⟩ :=
      related_talliedScVal (Tally.compositional_settles unread DecodeError.range (4 * depth) 4)
        depth (depth + more) ⟨ih, spends_talliedScVal depth⟩
    rw [Nat.succ_add, heq, heq']
    exact Tally.settles_once_bind takes_readU32 fun disc ↦ (hk disc).1

/-! ### Where the data are from -/

/-- `n` bytes of a buffer, in a row. -/
def Chunk (buf : Bytes) (n : ℕ) (bytes : Bytes) : Prop := bytes <:+: buf ∧ bytes.length = n

/-- A text of the buffer, or the decimal digits of an index. -/
def KeyFrom (buf : Bytes) (key : String) : Prop :=
  (∃ n text, Chunk buf n text ∧ key = textDecode text) ∨ ∃ i : ℕ, key = toString i

/-- **A value made from parts of a buffer.** -/
inductive FromBuffer (buf : Bytes) : ScVal → Prop
  | void : FromBuffer buf .void
  | bool {word : Bytes} (hword : Chunk buf 4 word) :
      FromBuffer buf (.bool (decide (beNat word ≠ 0)))
  | symbol {n : ℕ} {text : Bytes} (htext : Chunk buf n text) :
      FromBuffer buf (.symbol (textDecode text))
  | string {n : ℕ} {text : Bytes} (htext : Chunk buf n text) :
      FromBuffer buf (.string (textDecode text))
  | account {key : Bytes} (hkey : Chunk buf 32 key) : FromBuffer buf (.address (encodeG key))
  | contract {hash : Bytes} (hhash : Chunk buf 32 hash) :
      FromBuffer buf (.address (bufToHex hash))
  | i128 {hi lo : Bytes} (hhi : Chunk buf 8 hi) (hlo : Chunk buf 8 lo) :
      FromBuffer buf (.i128 (toSigned 64 (beNat hi) * 2 ^ 64 + beNat lo))
  | u32 {word : Bytes} (hword : Chunk buf 4 word) : FromBuffer buf (.u32 (beNat word))
  | vec {items : List ScVal} (hitems : ∀ x ∈ items, FromBuffer buf x) :
      FromBuffer buf (.vec items)
  | map {entries : List (String × ScVal)} (hkeys : ∀ entry ∈ entries, KeyFrom buf entry.1)
      (hvalues : ∀ entry ∈ entries, FromBuffer buf entry.2) : FromBuffer buf (.map entries)
  | other {word : Bytes} (hword : Chunk buf 4 word) : FromBuffer buf (.other (beNat word))

/-- What is read of the buffer has the property, and the buffer stays. -/
def Yields {α : Type} (buf : Bytes) (Q : α → Prop) (x : Reader α) : Prop :=
  ∀ r a r', r.bytes = buf → x r = .ok (a, r') → Q a ∧ r'.bytes = buf

section

variable {α β : Type} {buf : Bytes} {Q : α → Prop} {R : β → Prop} {x : Reader α}
  {k : α → Reader β} {a : α} {n : ℕ}

theorem yields_pure (h : Q a) : Yields buf Q (pure a) := by
  intro r a' r' hbuf hx
  obtain ⟨rfl, rfl⟩ := Tx.pure_eq_ok_iff.1 hx
  exact ⟨h, hbuf⟩

theorem Yields.bind (hx : Yields buf Q x) (hk : ∀ a, Q a → Yields buf R (k a)) :
    Yields buf R (x >>= k) := by
  intro r b r' hbuf h
  obtain ⟨a, r₁, hfirst, hrest⟩ := Tx.bind_eq_ok_iff.1 h
  obtain ⟨ha, hbuf₁⟩ := hx r a r₁ hbuf hfirst
  exact hk a ha r₁ b r' hbuf₁ hrest

theorem yields_takeBytes (n skip : ℕ) : Yields buf (Chunk buf n) (takeBytes n skip) := by
  rintro r bytes r' rfl h
  obtain ⟨hroom, rfl, rfl⟩ := takeBytes_eq_ok_iff.1 h
  have hlength : ((r.bytes.drop r.pos).take n).length = n := by
    rw [List.length_take, List.length_drop]
    omega
  exact ⟨⟨(List.take_prefix _ _).isInfix.trans (List.drop_suffix _ _).isInfix, hlength⟩, rfl⟩

theorem yields_number (f : Bytes → α) (n : ℕ) :
    Yields buf (fun a ↦ ∃ bytes, Chunk buf n bytes ∧ a = f bytes)
      (do let bytes ← takeBytes n 0; pure (f bytes)) :=
  (yields_takeBytes n 0).bind fun bytes hbytes ↦ yields_pure ⟨bytes, hbytes, rfl⟩

theorem yields_readU32 :
    Yields buf (fun word ↦ ∃ bytes, Chunk buf 4 bytes ∧ word = beNat bytes) readU32 :=
  yields_number beNat 4

theorem yields_readVarBytes : Yields buf (fun bytes ↦ ∃ n, Chunk buf n bytes) readVarBytes := by
  refine yields_readU32.bind fun len _ ↦ fun r bytes r' hbuf h ↦ ?_
  obtain ⟨hbytes, hbuf'⟩ := yields_takeBytes len _ r bytes r' hbuf h
  exact ⟨⟨len, hbytes⟩, hbuf'⟩

theorem yields_readString :
    Yields buf (fun s ↦ ∃ n text, Chunk buf n text ∧ s = textDecode text) readString := by
  refine yields_readVarBytes.bind fun text htext ↦ ?_
  obtain ⟨n, htext⟩ := htext
  exact yields_pure ⟨n, text, htext, rfl⟩

theorem yields_readAddress : Yields buf (FromBuffer buf) readAddress := by
  refine yields_readU32.bind fun addrType _ ↦ ?_
  split
  · exact yields_readU32.bind fun _ _ ↦
      (yields_takeBytes 32 _).bind fun key hkey ↦ yields_pure (.account hkey)
  · exact (yields_takeBytes 32 _).bind fun hash hhash ↦ yields_pure (.contract hhash)

theorem keyFrom_keyStr {key : ScVal} (h : FromBuffer buf key) (i : ℕ) :
    KeyFrom buf (keyStr i key) := by
  cases h with
  | symbol htext => exact .inl ⟨_, _, htext, rfl⟩
  | string htext => exact .inl ⟨_, _, htext, rfl⟩
  | _ => exact .inr ⟨i, rfl⟩

/-- `Map.set` adds no entry but its own. -/
theorem mem_mapSet {entries : List (String × ScVal)} {key : String} {value : ScVal}
    {entry : String × ScVal} (h : entry ∈ mapSet entries key value) :
    entry ∈ entries ∨ entry = (key, value) := by
  rw [mapSet] at h
  split_ifs at h
  · obtain ⟨old, hold, rfl⟩ := List.mem_map.1 h
    split_ifs
    · exact .inr rfl
    · exact .inl hold
  · exact (List.mem_append.1 h).imp_right List.mem_singleton.1

section

variable {item : Reader ScVal} (hitem : Yields buf (FromBuffer buf) item)
include hitem

theorem yields_readItems (n : ℕ) :
    Yields buf (fun items ↦ ∀ x ∈ items, FromBuffer buf x) (readItems item n) := by
  induction n with
  | zero => exact yields_pure (by simp)
  | succ n ih =>
    exact hitem.bind fun x hx ↦ ih.bind fun xs hxs ↦
      yields_pure (List.forall_mem_cons.2 ⟨hx, hxs⟩)

theorem yields_readEntries (i n : ℕ) {entries : List (String × ScVal)}
    (hentries : ∀ entry ∈ entries, KeyFrom buf entry.1 ∧ FromBuffer buf entry.2) :
    Yields buf (fun entries ↦ ∀ entry ∈ entries, KeyFrom buf entry.1 ∧ FromBuffer buf entry.2)
      (readEntries item i n entries) := by
  induction n generalizing i entries with
  | zero => exact yields_pure hentries
  | succ n ih =>
    refine hitem.bind fun key hkey ↦ hitem.bind fun value hvalue ↦ ih _ fun entry hentry ↦ ?_
    rcases mem_mapSet hentry with hold | rfl
    · exact hentries entry hold
    · exact ⟨keyFrom_keyStr hkey i, hvalue⟩

end

/-- **A decoded value is made from parts of the buffer.** -/
theorem yields_decodeScVal (depth : ℕ) : Yields buf (FromBuffer buf) (decodeScVal depth) := by
  induction depth with
  | zero =>
    intro r value r' hbuf h
    cases h
  | succ depth ih =>
    rw [decodeScVal]
    refine yields_readU32.bind fun disc hdisc ↦ ?_
    split
    · refine yields_readU32.bind fun word hword ↦ ?_
      obtain ⟨bytes, hbytes, rfl⟩ := hword
      exact yields_pure (.bool hbytes)
    · exact yields_pure .void
    · refine yields_readString.bind fun value hvalue ↦ ?_
      obtain ⟨n, text, htext, rfl⟩ := hvalue
      exact yields_pure (.symbol htext)
    · refine yields_readString.bind fun value hvalue ↦ ?_
      obtain ⟨n, text, htext, rfl⟩ := hvalue
      exact yields_pure (.string htext)
    · refine yields_readU32.bind fun word hword ↦ ?_
      obtain ⟨bytes, hbytes, rfl⟩ := hword
      exact yields_pure (.u32 hbytes)
    · refine (yields_number (fun bytes ↦ toSigned 64 (beNat bytes)) 8).bind fun hi hhi ↦
        (yields_number (fun bytes ↦ (beNat bytes : ℤ)) 8).bind fun lo hlo ↦ ?_
      obtain ⟨hibytes, hhi, rfl⟩ := hhi
      obtain ⟨lobytes, hlo, rfl⟩ := hlo
      exact yields_pure (.i128 hhi hlo)
    · exact yields_readAddress
    · refine yields_readU32.bind fun present _ ↦ ?_
      split
      · exact yields_pure (.vec (by simp))
      · exact yields_readU32.bind fun len _ ↦ (yields_readItems ih len).bind fun items hitems ↦
          yields_pure (.vec hitems)
    · refine yields_readU32.bind fun present _ ↦ ?_
      split
      · exact yields_pure (.map (by simp) (by simp))
      · exact yields_readU32.bind fun len _ ↦
          (yields_readEntries ih 0 len (by simp)).bind fun entries hentries ↦
            yields_pure (.map (fun entry h ↦ (hentries entry h).1) fun entry h ↦
              (hentries entry h).2)
    · obtain ⟨bytes, hbytes, rfl⟩ := hdisc
      exact yields_pure (.other hbytes)

end

/-! ### Events -/

theorem mapM_eq_none {α β : Type} {f : α → Option β} {a : α} (hfails : f a = none) {l : List α}
    (ha : a ∈ l) : l.mapM f = none := by
  induction l with
  | nil => cases ha
  | cons b l ih =>
    rw [List.mapM_cons]
    rcases List.mem_cons.1 ha with rfl | ha
    · rw [hfails]
      rfl
    · rw [ih ha]
      cases f b <;> rfl

/-- An event with a part that cannot be decoded counts as unknown. -/
theorem decodeEvent_eq_none {raw : RawSorobanEvent} {b64 : String} (hfails : decodeText b64 = none)
    (hpart : b64 ∈ raw.topic ∨ raw.value = b64 ∧ b64.isEmpty = false) :
    decodeEvent raw = none := by
  rw [decodeEvent]
  split_ifs with htopic hvalue
  · rfl
  · rcases hpart with hmem | ⟨rfl, hnonempty⟩
    · rw [mapM_eq_none hfails hmem]
      rfl
    · rw [hvalue] at hnonempty
      cases hnonempty
  · rcases hpart with hmem | ⟨rfl, -⟩
    · rw [mapM_eq_none hfails hmem]
      rfl
    · rw [hfails]
      cases raw.topic.mapM decodeText <;> rfl

/-- **Decoding does no more work than its input is long.** For every byte string of `n` bytes, any
number of levels above `n / 4` is enough and makes no difference. The decoder calls itself no more
than `n / 4 + 1` times, the first call included. It ends with a value that is made from parts of
the byte string, or with a range error, and then an event with this byte string in it counts as
unknown. -/
theorem decodeScVal_work (bytes : Bytes) :
    let depth := bytes.length / 4 + 1
    let start : XdrReader := ⟨bytes, 0⟩
    (∀ deeper, depth ≤ deeper → talliedScVal deeper start = talliedScVal depth start ∧
      (talliedScVal deeper).forget start = decodeScVal deeper start) ∧
    (talliedScVal depth).count start ≤ bytes.length / 4 + 1 ∧
    ((∃ value rest, decodeScVal depth start = .ok (value, rest) ∧ FromBuffer bytes value) ∨
      decodeScVal depth start = .error (.error .range) ∧
        ∀ (raw : RawSorobanEvent) (b64 : String), base64ToBytes b64 = some bytes →
          b64 ∈ raw.topic ∨ raw.value = b64 ∧ b64.isEmpty = false → decodeEvent raw = none) := by
  intro depth start
  have hleft : unread start < 4 * depth := by
    show bytes.length - 0 < 4 * (bytes.length / 4 + 1)
    omega
  refine ⟨fun deeper hdeeper ↦ ⟨?_, by rw [forget_talliedScVal]⟩, ?_, ?_⟩
  -- deeper makes no difference where the bytes run out first
  · obtain ⟨more, rfl⟩ := Nat.exists_eq_add_of_le hdeeper
    exact (settles_talliedScVal depth more).eq hleft
  -- every call but the last has read four bytes
  · have hspends := spends_talliedScVal depth
    rw [Tally.count]
    have hunread : unread start = bytes.length := rfl
    rcases hrun : talliedScVal depth start with ⟨f | ⟨value, rest⟩, calls⟩
    · have hpaid := hspends.of_error hrun
      dsimp only
      omega
    · have hpaid := hspends.of_ok hrun
      dsimp only
      omega
  · have hforget : (talliedScVal depth start).1 = decodeScVal depth start :=
      congrFun (forget_talliedScVal depth) start
    cases hrun : decodeScVal depth start with
    | ok result =>
      obtain ⟨value, rest⟩ := result
      exact .inl ⟨value, rest, rfl, (yields_decodeScVal depth start value rest rfl hrun).1⟩
    | error f =>
      rw [hrun] at hforget
      obtain rfl := (settles_talliedScVal depth 0).of_error hleft (Prod.ext hforget rfl)
      refine .inr ⟨rfl, fun raw b64 hb64 hpart ↦ decodeEvent_eq_none ?_ hpart⟩
      rw [decodeText, hb64, Option.bind_eq_bind, Option.bind_some, decodeBytes, hrun]

end Indexer
