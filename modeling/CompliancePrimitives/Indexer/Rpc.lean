import CompliancePrimitives.Foundation.Retry

/-!
# The retries of the RPC client

`SorobanRpc.request` sends a JSON-RPC request, and sends it again after a failure that may be
temporary. Whether it is, is read off the error's **message**: every failed attempt formats its
status or code into one, and `isTransientError` searches the message for it with a regular
expression.

In that expression the backslash is doubled, so that it does not look for digits but for a backslash
and letters `d`. No message the client writes has them, unless the server's text does: every error
counts as temporary, or else, if its message has such a text, as final (`isTransientError_eq`).
`request_documented_iff` says for which answers the client still does what is documented.

What the server does is the argument `answer` of a request: what each attempt would meet, if it were
made. What `JSON.parse` makes of a body is part of it.
-/

namespace Indexer

/-! ### Errors and answers -/

/-- What can be thrown: an `Error` with its message, or something else with its text. -/
inductive Thrown where
  | error (message : String)
  | other (text : String)
  deriving DecidableEq, Repr

/-- The `error` member of a JSON-RPC response. -/
structure RpcError where
  code : ℤ
  message : String
  deriving DecidableEq, Repr

/-- A JSON-RPC response, parsed. -/
structure RpcResponse (T : Type) where
  result : Option T
  error : Option RpcError
  deriving DecidableEq, Repr

/-- What an attempt meets: the request fails on its way, or is answered with a status, a text, and
what `JSON.parse` makes of the text. -/
inductive Answer (T : Type) where
  | rejected (thrown : Thrown)
  | response (status : ℕ) (text : String) (json : Except String (RpcResponse T))

/-- `res.ok`. -/
def isOk (status : ℕ) : Bool := decide (200 ≤ status ∧ status ≤ 299)

/-- The body of the `try` block: the result, or what is thrown. -/
def attemptResult {T : Type} (method : String) : Answer T → Except Thrown T
  | .rejected thrown => .error thrown
  | .response status text json =>
    if isOk status then
      match json with
      | .error message => .error (.error message)
      | .ok response =>
        match response.error with
        | some error =>
          .error (.error ("RPC error " ++ toString error.code ++ ": " ++ error.message))
        | none =>
          match response.result with
          | some result => .ok result
          | none => .error (.error ("RPC " ++ method ++ " returned neither result nor error"))
    else
      -- the status is looked at here, but the error is thrown in either case
      .error (.error ("RPC HTTP error " ++ toString status ++ ": " ++ text))

/-! ### What counts as temporary -/

/-- `isTransientStatus`. Of `NaN` nothing holds. -/
def isTransientStatus (statusOrCode : Option ℤ) : Bool :=
  match statusOrCode with
  | some n => decide (n = 408 ∨ n = 425 ∨ n = 429 ∨ 500 ≤ n ∨ n = -32000 ∨ n = -32603)
  | none => false

/-- A backslash. -/
def backslash : Char := Char.ofNat 92

/-- An optional minus sign, and what comes after it. -/
def splitSign : List Char → List Char × List Char
  | '-' :: rest => (['-'], rest)
  | cs => ([], cs)

/-- The regular expression, at the start of a text: `RPC`, the kind of error, an optional sign, a
backslash, and as many `d` as there are. What is captured begins with the sign. -/
def matchHere (cs : List Char) : Option (List Char) := do
  let cs ← cs.dropPrefix? "RPC ".toList
  let cs ← (cs.dropPrefix? "HTTP error".toList).or (cs.dropPrefix? "error".toList)
  let cs ← cs.dropPrefix? [' ']
  let rest ← (splitSign cs).2.dropPrefix? [backslash]
  match rest.takeWhile fun c ↦ decide (c = 'd') with
  | [] => none
  | digits => some ((splitSign cs).1 ++ backslash :: digits)

/-- `message.match`: the leftmost match. -/
def messageMatch : List Char → Option (List Char)
  | [] => none
  | c :: cs => (matchHere (c :: cs)).or (messageMatch cs)

/-- `Number`, for decimal texts with or without a sign. Any other text is not a number. -/
def number (cs : List Char) : Option ℤ :=
  let (sign, digits) := splitSign cs
  if digits ≠ [] ∧ digits.all Char.isDigit = true then
    let value := digits.foldl (fun n c ↦ n * 10 + (c.toNat - 48 : ℤ)) 0
    some (if sign = [] then value else -value)
  else none

/-- `isTransientError`. -/
def isTransientError : Thrown → Bool
  | .other _ => true
  | .error message =>
    match messageMatch message.toList with
    | some code => isTransientStatus (number code)
    | none => true

/-! ### The client -/

/-- `SorobanRpcOptions`. -/
structure SorobanRpcOptions where
  maxRetries : Option ℕ
  baseDelayMs : Option ℕ
  maxDelayMs : Option ℕ

/-- `SorobanRpc`: its options, and the number of the next request. -/
structure SorobanRpc where
  nextId : ℕ
  maxRetries : ℕ
  baseDelayMs : ℕ
  maxDelayMs : ℕ

/-- The constructor. -/
def SorobanRpc.new (options : SorobanRpcOptions) : SorobanRpc where
  nextId := 1
  maxRetries := options.maxRetries.getD 4
  baseDelayMs := options.baseDelayMs.getD 250
  maxDelayMs := options.maxDelayMs.getD 5000

/-- What a request comes to: the numbers of the requests sent, the delays between them, and what is
returned or thrown. -/
structure Exchange (T : Type) where
  fetches : List ℕ
  delays : List ℕ
  result : Except Thrown T

namespace SorobanRpc

variable {T : Type} (rpc : SorobanRpc) (method : String) (answer : ℕ → Answer T)

/-- The delay after an attempt. -/
def delay (attempt : ℕ) : ℕ := min rpc.maxDelayMs (rpc.baseDelayMs * 2 ^ attempt)

/-- What is thrown is an `Error` in the end. -/
def asError : Thrown → Thrown
  | .error message => .error message
  | .other text => .error text

/-- The loop, from an attempt on, for at most `rounds` rounds. -/
def requestLoop : (rounds attempt nextId : ℕ) → (lastError : Thrown) → Exchange T
  | 0, _, _, lastError => ⟨[], [], .error (asError lastError)⟩
  | rounds + 1, attempt, nextId, _ =>
    match attemptResult method (answer attempt) with
    | .ok result => ⟨[nextId], [], .ok result⟩
    | .error error =>
      if attempt = rpc.maxRetries ∨ isTransientError error = false then
        ⟨[nextId], [], .error error⟩
      else
        let rest := requestLoop rounds (attempt + 1) (nextId + 1) error
        ⟨nextId :: rest.fetches, rpc.delay attempt :: rest.delays, rest.result⟩

/-- `request`. -/
def request : Exchange T :=
  requestLoop rpc method answer (rpc.maxRetries + 1) 0 rpc.nextId (.other "undefined")

end SorobanRpc

/-! ### What is documented -/

/-- The attempt is answered with a result. -/
def Succeeds {T : Type} (method : String) (x : Answer T) : Prop :=
  ∃ result, attemptResult method x = .ok result

/-- **A failure that is documented to be permanent**: HTTP 4xx other than 408, 425 and 429, and
JSON-RPC codes other than -32000 and -32603. -/
def Permanent {T : Type} : Answer T → Prop
  | .rejected _ => False
  | .response status _ json =>
    if isOk status then
      match json with
      | .error _ => False
      | .ok response => ∃ error ∈ response.error, error.code ≠ -32000 ∧ error.code ≠ -32603
    else (400 ≤ status ∧ status < 500) ∧ status ≠ 408 ∧ status ≠ 425 ∧ status ≠ 429

/-- **What is documented of a request**: it is sent until an attempt succeeds or fails permanently,
or `maxRetries` retries are used up, and comes to what the last attempt comes to. -/
def Documented {T : Type} (rpc : SorobanRpc) (method : String) (answer : ℕ → Answer T)
    (x : Exchange T) : Prop :=
  ∃ k, Retry.IsLast (fun j ↦ Succeeds method (answer j) ∨ Permanent (answer j)) rpc.maxRetries k ∧
    x.fetches.length = k + 1 ∧ x.result = attemptResult method (answer k)

/-- The texts the regular expression finds. -/
def marks : List (List Char) :=
  ["RPC HTTP error ".toList ++ [backslash, 'd'], "RPC HTTP error -".toList ++ [backslash, 'd'],
    "RPC error ".toList ++ [backslash, 'd'], "RPC error -".toList ++ [backslash, 'd']]

/-- **A failure the client takes for permanent**: its message has one of these texts. -/
def Marked {T : Type} (method : String) (x : Answer T) : Prop :=
  ∃ message, attemptResult method x = .error (.error message) ∧
    ∃ mark ∈ marks, mark <:+: message.toList

/-! ### What the regular expression finds -/

theorem dropPrefix_eq_some_iff {cs start rest : List Char} :
    cs.dropPrefix? start = some rest ↔ cs = start ++ rest := by
  rw [List.dropPrefix?_eq_some_iff]
  constructor
  · rintro ⟨start', rfl, hstart⟩
    rw [eq_of_beq hstart]
  · rintro rfl
    exact ⟨start, rfl, beq_self_eq_true start⟩

theorem splitSign_cases (cs : List Char) :
    (∃ rest, cs = '-' :: rest ∧ splitSign cs = (['-'], rest)) ∨ splitSign cs = ([], cs) := by
  unfold splitSign
  split
  next rest => exact .inl ⟨rest, rfl, rfl⟩
  next => exact .inr rfl

/-- What matches starts with one of the four texts, and what is captured has a backslash behind its
sign. -/
theorem matchHere_eq_some {cs code : List Char} (h : matchHere cs = some code) :
    (∃ mark ∈ marks, mark <+: cs) ∧
      ∃ digits, code = ['-'] ++ backslash :: digits ∨ code = backslash :: digits := by
  obtain ⟨cs₁, h₁, h⟩ := Option.bind_eq_some_iff.1 h
  obtain ⟨cs₂, h₂, h⟩ := Option.bind_eq_some_iff.1 h
  obtain ⟨cs₃, h₃, h⟩ := Option.bind_eq_some_iff.1 h
  obtain ⟨cs₄, h₄, h⟩ := Option.bind_eq_some_iff.1 h
  rw [dropPrefix_eq_some_iff] at h₁ h₃ h₄
  have hkind : cs₁ = "HTTP error".toList ++ cs₂ ∨ cs₁ = "error".toList ++ cs₂ := by
    rcases Option.or_eq_some_iff.1 h₂ with hhttp | ⟨-, hplain⟩
    · exact .inl (dropPrefix_eq_some_iff.1 hhttp)
    · exact .inr (dropPrefix_eq_some_iff.1 hplain)
  -- at least one `d` comes last
  rcases cs₄ with _ | ⟨c, rest⟩
  · cases h
  by_cases hc : c = 'd'
  · subst hc
    have hcode : code = (splitSign cs₃).1 ++ backslash :: 'd' ::
        rest.takeWhile fun c ↦ decide (c = 'd') := (Option.some.inj h).symm
    subst h₁ h₃
    rcases splitSign_cases cs₃ with ⟨cs, rfl, hsign⟩ | hsign <;> rw [hsign] at h₄ hcode
    · obtain rfl : cs = [backslash] ++ 'd' :: rest := h₄
      refine ⟨?_, _, .inl hcode⟩
      rcases hkind with rfl | rfl
      · exact ⟨_, .tail _ (.head _), rest, rfl⟩
      · exact ⟨_, .tail _ (.tail _ (.tail _ (.head _))), rest, rfl⟩
    · obtain rfl : cs₃ = [backslash] ++ 'd' :: rest := h₄
      refine ⟨?_, _, .inr hcode⟩
      rcases hkind with rfl | rfl
      · exact ⟨_, .head _, rest, rfl⟩
      · exact ⟨_, .tail _ (.tail _ (.head _)), rest, rfl⟩
  · rw [List.takeWhile_cons_of_neg (by simpa using hc)] at h
    cases h

/-- What starts with one of the four texts matches. -/
theorem matchHere_of_mark {mark cs : List Char} (hmark : mark ∈ marks) (hcs : mark <+: cs) :
    ∃ code, matchHere cs = some code := by
  obtain ⟨rest, rfl⟩ := hcs
  rcases hmark with _ | ⟨_, _ | ⟨_, _ | ⟨_, _ | ⟨_, hnil⟩⟩⟩⟩
  · exact ⟨_, rfl⟩
  · exact ⟨_, rfl⟩
  · exact ⟨_, rfl⟩
  · exact ⟨_, rfl⟩
  · cases hnil

/-- **What the client searches a message for** are the four texts, and nothing it captures is a
number. -/
theorem messageMatch_eq (cs : List Char) :
    ((∃ mark ∈ marks, mark <:+: cs) ∧ ∃ code, messageMatch cs = some code ∧ number code = none) ∨
      (¬∃ mark ∈ marks, mark <:+: cs) ∧ messageMatch cs = none := by
  induction cs with
  | nil =>
    refine .inr ⟨?_, rfl⟩
    rintro ⟨mark, hmark, hnil⟩
    rw [List.infix_nil.1 hnil] at hmark
    exact absurd hmark (by decide)
  | cons c cs ih =>
    -- the expression is tried at each place of the message, first to last
    rcases hhere : matchHere (c :: cs) with _ | code
    · have hno : ¬∃ mark ∈ marks, mark <+: c :: cs := by
        rintro ⟨mark, hmark, hprefix⟩
        obtain ⟨code, hcode⟩ := matchHere_of_mark hmark hprefix
        rw [hhere] at hcode
        cases hcode
      have hmatch : messageMatch (c :: cs) = messageMatch cs := by
        rw [messageMatch, hhere, Option.none_or]
      have hmarks : (∃ mark ∈ marks, mark <:+: c :: cs) ↔ ∃ mark ∈ marks, mark <:+: cs := by
        constructor
        · rintro ⟨mark, hmark, hinfix⟩
          rcases List.infix_cons_iff.1 hinfix with hprefix | hinfix
          · exact absurd ⟨mark, hmark, hprefix⟩ hno
          · exact ⟨mark, hmark, hinfix⟩
        · rintro ⟨mark, hmark, hinfix⟩
          exact ⟨mark, hmark, hinfix.trans (List.suffix_cons c cs).isInfix⟩
      rw [hmatch, hmarks]
      exact ih
    · obtain ⟨⟨mark, hmark, hprefix⟩, digits, hcode⟩ := matchHere_eq_some hhere
      refine .inl ⟨⟨mark, hmark, hprefix.isInfix⟩, code, ?_, ?_⟩
      · rw [messageMatch, hhere, Option.some_or]
      · rcases hcode with rfl | rfl <;> rfl

/-- **The classification, as it is**: an error is permanent if its message has one of the four
texts, and temporary otherwise, whatever its status or code. -/
theorem isTransientError_eq_false_iff (thrown : Thrown) :
    isTransientError thrown = false ↔
      ∃ message, thrown = .error message ∧ ∃ mark ∈ marks, mark <:+: message.toList := by
  cases thrown with
  | other text => simp [isTransientError]
  | error message =>
    rw [isTransientError]
    rcases messageMatch_eq message.toList with ⟨hmarks, code, hmatch, hnumber⟩ | ⟨hno, hmatch⟩
    · rw [hmatch]
      dsimp only
      rw [hnumber]
      exact iff_of_true rfl ⟨message, rfl, hmarks⟩
    · rw [hmatch]
      refine iff_of_false (by simp) ?_
      rintro ⟨_, hmessage, hmarks⟩
      cases hmessage
      exact hno hmarks

/-! ### What a request comes to -/

section

variable {T : Type} {rpc : SorobanRpc} {method : String} {answer : ℕ → Answer T}

/-- The attempt ends the loop, for the client. -/
def Stops (method : String) (x : Answer T) : Prop := Succeeds method x ∨ Marked method x

/-- A failed attempt ends the loop if its error is not taken for a temporary one. -/
theorem stops_iff_of_error {x : Answer T} {error : Thrown}
    (hx : attemptResult method x = .error error) :
    Stops method x ↔ isTransientError error = false := by
  rw [isTransientError_eq_false_iff, Stops, Succeeds, Marked, hx]
  simp

/-- The last attempt: one request, and its result. -/
theorem requestLoop_of_last {rounds attempt nextId : ℕ} {lastError : Thrown}
    (hlast : attempt = rpc.maxRetries ∨ Stops method (answer attempt)) :
    SorobanRpc.requestLoop rpc method answer (rounds + 1) attempt nextId lastError =
      ⟨[nextId], [], attemptResult method (answer attempt)⟩ := by
  rw [SorobanRpc.requestLoop]
  rcases hx : attemptResult method (answer attempt) with error | result
  · rw [stops_iff_of_error hx] at hlast
    dsimp only
    rw [if_pos hlast]
  · rfl

/-- Any other attempt: one request, a delay, and the loop from the next attempt on. -/
theorem requestLoop_of_open {attempt : ℕ} (rounds nextId : ℕ) (lastError : Thrown)
    (hretries : attempt ≠ rpc.maxRetries) (hopen : ¬Stops method (answer attempt)) :
    ∃ error, SorobanRpc.requestLoop rpc method answer (rounds + 1) attempt nextId lastError =
      let rest := SorobanRpc.requestLoop rpc method answer rounds (attempt + 1) (nextId + 1) error
      ⟨nextId :: rest.fetches, rpc.delay attempt :: rest.delays, rest.result⟩ := by
  rw [SorobanRpc.requestLoop]
  rcases hx : attemptResult method (answer attempt) with error | result
  · rw [stops_iff_of_error hx] at hopen
    dsimp only
    rw [if_neg (not_or.2 ⟨hretries, hopen⟩)]
    exact ⟨error, rfl⟩
  · exact absurd (.inl ⟨result, hx⟩) hopen

/-- **The loop, from an attempt on**: it sends a request for each attempt up to the last one, waits
between two of them, and comes to what the last attempt comes to. -/
theorem requestLoop_spec (rpc : SorobanRpc) (method : String) (answer : ℕ → Answer T)
    {rounds attempt : ℕ} (nextId : ℕ) (lastError : Thrown)
    (hrounds : attempt + rounds = rpc.maxRetries)
    (hopen : ∀ j < attempt, ¬Stops method (answer j)) :
    ∃ k, Retry.IsLast (fun j ↦ Stops method (answer j)) rpc.maxRetries k ∧ attempt ≤ k ∧
      SorobanRpc.requestLoop rpc method answer (rounds + 1) attempt nextId lastError =
        ⟨List.range' nextId (k - attempt + 1), (List.range' attempt (k - attempt)).map rpc.delay,
          attemptResult method (answer k)⟩ := by
  induction rounds generalizing attempt nextId lastError with
  | zero =>
    have hretries : attempt = rpc.maxRetries := hrounds
    refine ⟨attempt, ⟨hretries.le, hopen, .inl hretries⟩, le_rfl, ?_⟩
    rw [requestLoop_of_last (.inl hretries), Nat.sub_self]
    rfl
  | succ rounds ih =>
    by_cases hstops : Stops method (answer attempt)
    · refine ⟨attempt, ⟨by omega, hopen, .inr hstops⟩, le_rfl, ?_⟩
      rw [requestLoop_of_last (.inr hstops), Nat.sub_self]
      rfl
    · have hopen' : ∀ j < attempt + 1, ¬Stops method (answer j) := by
        intro j hj
        rcases Nat.lt_succ_iff_lt_or_eq.1 hj with hlt | rfl
        · exact hopen j hlt
        · exact hstops
      have hretries : attempt ≠ rpc.maxRetries := by omega
      obtain ⟨error, hloop⟩ := requestLoop_of_open (rounds + 1) nextId lastError hretries hstops
      obtain ⟨k, hlast, hle, hrest⟩ := ih (nextId + 1) error (by omega) hopen'
      refine ⟨k, hlast, by omega, ?_⟩
      -- the requests and delays of the later attempts come behind those of this one
      have hsub : k - attempt = k - (attempt + 1) + 1 := by omega
      rw [hloop, hrest, hsub, List.range'_succ (s := nextId), List.range'_succ (s := attempt),
        List.map_cons]

/-- **What a request comes to**: numbered requests up to the last attempt, bounded delays that
double between them, and the result of the last attempt. -/
theorem request_spec (rpc : SorobanRpc) (method : String) (answer : ℕ → Answer T) :
    ∃ k, Retry.IsLast (fun j ↦ Stops method (answer j)) rpc.maxRetries k ∧
      rpc.request method answer =
        ⟨List.range' rpc.nextId (k + 1), (List.range k).map rpc.delay,
          attemptResult method (answer k)⟩ := by
  obtain ⟨k, hlast, -, hloop⟩ :=
    requestLoop_spec rpc method answer rpc.nextId (.other "undefined") (Nat.zero_add _) (by simp)
  rw [Nat.sub_zero, ← List.range_eq_range'] at hloop
  exact ⟨k, hlast, hloop⟩

/-- If some attempt succeeds or fails permanently, what is documented is the smaller of
`maxRetries + 1` and the position of the first that does. -/
theorem Documented.fetches_eq_min {x : Exchange T} (h : Documented rpc method answer x) {p : ℕ}
    (hp : Succeeds method (answer p) ∨ Permanent (answer p))
    (hfirst : ∀ j < p, ¬(Succeeds method (answer j) ∨ Permanent (answer j))) :
    x.fetches.length = min (rpc.maxRetries + 1) (p + 1) := by
  obtain ⟨k, hlast, hlength, -⟩ := h
  obtain rfl : k = min rpc.maxRetries p := hlast.eq (Retry.isLast_min hp hfirst)
  rw [hlength, Nat.add_min_add_right]

/-- No answer is a success and a failure that the client takes for permanent. -/
theorem not_marked_of_succeeds {x : Answer T} (h : Succeeds method x) : ¬Marked method x := by
  rintro ⟨message, hmessage, -⟩
  obtain ⟨result, hresult⟩ := h
  rw [hresult] at hmessage
  cases hmessage

theorem not_permanent_of_succeeds {x : Answer T} (h : Succeeds method x) : ¬Permanent x := by
  obtain ⟨result, hresult⟩ := h
  cases x with
  | rejected thrown => exact not_false
  | response status text json =>
    simp only [attemptResult, Permanent] at hresult ⊢
    split_ifs at hresult ⊢ with hok
    rcases json with message | ⟨value, _ | error⟩
    · exact not_false
    · rintro ⟨_, hnone, -⟩
      cases hnone
    · cases hresult

/-- What a request comes to is documented if its last attempt is. -/
theorem documented_iff_isLast {k : ℕ} (rpc : SorobanRpc) (method : String) (answer : ℕ → Answer T) :
    Documented rpc method answer
        ⟨List.range' rpc.nextId (k + 1), (List.range k).map rpc.delay,
          attemptResult method (answer k)⟩ ↔
      Retry.IsLast (fun j ↦ Succeeds method (answer j) ∨ Permanent (answer j))
        rpc.maxRetries k := by
  constructor
  · rintro ⟨k', hlast', hlength, -⟩
    obtain rfl : k = k' := by simpa using hlength
    exact hlast'
  · exact fun hlast' ↦ ⟨k, hlast', by simp, rfl⟩

/-- A request does what is documented if the client stops where it is documented to stop. -/
theorem documented_iff_agree (rpc : SorobanRpc) (method : String) (answer : ℕ → Answer T) :
    Documented rpc method answer (rpc.request method answer) ↔
      ∀ i < rpc.maxRetries,
        (∀ j < i, ¬(Succeeds method (answer j) ∨ Permanent (answer j)) ∧
          ¬Stops method (answer j)) →
        (Succeeds method (answer i) ∨ Permanent (answer i) ↔ Stops method (answer i)) := by
  obtain ⟨k, hlast, hrequest⟩ := request_spec rpc method answer
  obtain ⟨k', hlast'⟩ := Retry.exists_isLast
    (fun j ↦ Succeeds method (answer j) ∨ Permanent (answer j)) rpc.maxRetries
  rw [hrequest, documented_iff_isLast, ← hlast'.eq_iff_agree hlast]
  constructor
  · exact fun h ↦ hlast'.eq h
  · rintro rfl
    exact hlast'

/-- A failure is taken for what it is, or not. -/
theorem stops_agree_iff {x : Answer T} :
    (Succeeds method x ∨ Permanent x ↔ Stops method x) ↔ (Permanent x ↔ Marked method x) := by
  by_cases hsucceeds : Succeeds method x
  · exact iff_of_true (iff_of_true (.inl hsucceeds) (.inl hsucceeds))
      (iff_of_false (not_permanent_of_succeeds hsucceeds) (not_marked_of_succeeds hsucceeds))
  · rw [Stops, or_iff_right hsucceeds, or_iff_right hsucceeds]

/-- **When a request does what is documented.** Look at the attempts before the last permitted one,
up to the first that succeeds, fails permanently, or has one of the four texts in its message: if
that one fails, it fails permanently exactly if it has such a text. -/
theorem request_documented_iff (rpc : SorobanRpc) (method : String) (answer : ℕ → Answer T) :
    Documented rpc method answer (rpc.request method answer) ↔
      ∀ k < rpc.maxRetries,
        (∀ j < k, ¬Succeeds method (answer j) ∧ ¬Permanent (answer j) ∧
          ¬Marked method (answer j)) →
        (Permanent (answer k) ↔ Marked method (answer k)) := by
  rw [documented_iff_agree]
  refine forall₂_congr fun k _ ↦ ?_
  have hopen : (∀ j < k, ¬(Succeeds method (answer j) ∨ Permanent (answer j)) ∧
      ¬Stops method (answer j)) ↔ ∀ j < k, ¬Succeeds method (answer j) ∧
        ¬Permanent (answer j) ∧ ¬Marked method (answer j) := by
    refine forall₂_congr fun j _ ↦ ?_
    rw [Stops]
    tauto
  rw [hopen, stops_agree_iff]

end

/-- A server that refuses every request as malformed. -/
def badRequest : Answer ℕ := .response 400 "bad request" (.error "not JSON")

/-- **A refused request is sent again**, four times in all where one was to be enough. -/
theorem badRequest_not_documented :
    ¬Documented ⟨1, 3, 1, 2⟩ "getEvents" (fun _ ↦ badRequest)
      (SorobanRpc.request ⟨1, 3, 1, 2⟩ "getEvents" fun _ ↦ badRequest) := by
  intro h
  have hpermanent : Permanent badRequest := by simp [Permanent, badRequest, isOk]
  have hlength := h.fetches_eq_min (p := 0) (.inr hpermanent) (by simp)
  revert hlength
  decide

end Indexer
