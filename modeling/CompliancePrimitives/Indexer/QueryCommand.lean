import CompliancePrimitives.Foundation.OffsetPaging
import CompliancePrimitives.Indexer.Numbers
import CompliancePrimitives.Indexer.Query
import CompliancePrimitives.Indexer.WholePolls

/-!
# The query command

`query` looks up the events of an address from the command line: it parses its arguments, asks the
database, and if it has printed as many events as `--limit` allows, it tells the `--offset` to go on
with. Here is what a reader gets who repeats the command with the offset it was told, again and
again (`follow`), while the indexer goes on writing.

Later rows come first, and the events a poll adds are of later ledgers. So what is printed may
repeat, but no event that was there at first is skipped, and of a database that does not change
every event is printed once. The reader comes to an end when it has asked for more events than there
are, so of a database that does not change it always does (`follow_misses_nothing`).

The sum of an offset and a limit is exact where it is printed: there are that many rows. Opening the
database is left out, and so is the layout of an event in the listing. With `--json` no offset is
told, and a reader that counts for itself is not what this is about.
-/

namespace Indexer

open OffsetPaging

/-! ### Arguments -/

/-- `QueryArgs`. A limit and an offset are whole numbers once they are accepted. -/
structure QueryArgs where
  address : String
  dbPath : String
  contractId : Option String
  eventType : Option String
  limit : ℕ
  offset : ℕ
  json : Bool
  deriving DecidableEq, Repr

/-- Why the command ends with nothing printed about events: it tells what is wrong with the
arguments, or how it is used, or the database throws. -/
inductive Exit where
  | fatal (msg : String)
  | help
  | thrown (msg : String)
  deriving DecidableEq, Repr

/-- The flags that take a value. -/
def valuedFlags : List String :=
  ["--address", "--db", "--contract", "--type", "--limit", "--offset"]

/-- An argument that has to be an integer, and not below a bound. -/
def integerFrom (bound : ℤ) (msg next : String) : Except Exit ℕ :=
  match toNumber next with
  | some value =>
    if ¬value.isInt = true ∨ value < bound then .error (.fatal msg) else .ok value.num.toNat
  | none => .error (.fatal msg)

/-- What a flag does with its value. -/
def storeFlag (flag next : String) (args : QueryArgs) : Except Exit QueryArgs :=
  if flag = "--address" then .ok { args with address := next }
  else if flag = "--db" then .ok { args with dbPath := next }
  else if flag = "--contract" then .ok { args with contractId := some next }
  else if flag = "--type" then .ok { args with eventType := some next }
  else if flag = "--limit" then
    (integerFrom 1 "--limit must be a positive integer" next).map fun limit ↦
      { args with limit }
  else
    (integerFrom 0 "--offset must be a non-negative integer" next).map fun offset ↦
      { args with offset }

/-- The loop of `parseArgs`. What is no flag is skipped. -/
def parseLoop : List String → QueryArgs → Except Exit QueryArgs
  | [], args => .ok args
  | flag :: rest, args =>
    if flag ∈ valuedFlags then
      match rest with
      | [] => .error (.fatal (flag ++ " requires a value"))
      | next :: rest =>
        if next.isEmpty then .error (.fatal (flag ++ " requires a value"))
        else
          match storeFlag flag next args with
          | .error exit => .error exit
          | .ok args => parseLoop rest args
    else if flag = "--json" then parseLoop rest { args with json := true }
    else if flag = "--help" ∨ flag = "-h" then .error .help
    else if "--".toList.isPrefixOf flag.toList then .error (.fatal ("Unknown flag: " ++ flag))
    else parseLoop rest args

/-- What is set if nothing is given. -/
def defaultArgs (dbPath : String) : QueryArgs where
  address := ""
  dbPath := dbPath
  contractId := none
  eventType := none
  limit := 100
  offset := 0
  json := false

/-- `parseArgs`, with the path of the database that it takes if it is given none. -/
def parseArgs (dbPath : String) (argv : List String) : Except Exit QueryArgs :=
  match parseLoop argv (defaultArgs dbPath) with
  | .error exit => .error exit
  | .ok args =>
    if args.address.isEmpty then .error (.fatal "--address is required") else .ok args

/-! ### The command -/

/-- The options of the query that is made. -/
def QueryArgs.options (args : QueryArgs) : QueryOptions :=
  ⟨args.contractId, args.eventType, some args.limit, some args.offset⟩

/-- What is printed. A listing may tell the offset to go on with. -/
inductive Printed where
  | json (events : List RawEvent)
  | nothing (address : String)
  | listing (events : List RawEvent) (more : Option ℕ)

/-- The last part of `runQuery`. -/
def printed (args : QueryArgs) (events : List RawEvent) : Printed :=
  if args.json then .json events
  else if events.length = 0 then .nothing args.address
  else
    .listing events
      (if events.length = args.limit then some (args.offset + args.limit) else none)

/-- What SQLite takes for a number of rows has to fit into 64 bits with a sign. -/
def QueryArgs.Fits (args : QueryArgs) : Prop := args.limit < 2 ^ 63 ∧ args.offset < 2 ^ 63

instance (args : QueryArgs) : Decidable args.Fits := inferInstanceAs (Decidable (_ ∧ _))

/-- `runQuery`, on the database it finds. -/
def runQuery (dbPath : String) (argv : List String) (db : ComplianceDb) : Except Exit Printed :=
  match parseArgs dbPath argv with
  | .error exit => .error exit
  | .ok args =>
    if args.Fits then .ok (printed args (db.queryEventsByAddress args.address args.options))
    else .error (.thrown "datatype mismatch")

/-- The command, made again with the offset it has told as long as it tells one, each time on the
database as it is then. What is listed, or `none` if it comes to no end. -/
def follow (dbPath : String) : List String → List ComplianceDb → Option (List (List RawEvent))
  | _, [] => none
  | argv, db :: dbs =>
    match runQuery dbPath argv db with
    | .ok (.listing events (some offset)) =>
      (follow dbPath (argv ++ ["--offset", toString offset]) dbs).map fun pages ↦ events :: pages
    | .ok (.listing events none) => some [events]
    | .ok (.nothing _) => some [[]]
    | _ => none

/-! ### Arguments that are added -/

section

variable {argv more : List String} {args args' : QueryArgs} {dbPath : String}

/-- A flag without a value, or no flag. -/
theorem parseLoop_of_not_valued {flag : String} {rest : List String}
    (h : flag ∉ valuedFlags) :
    parseLoop (flag :: rest) args =
      if flag = "--json" then parseLoop rest { args with json := true }
      else if flag = "--help" ∨ flag = "-h" then .error .help
      else if "--".toList.isPrefixOf flag.toList then .error (.fatal ("Unknown flag: " ++ flag))
      else parseLoop rest args := by
  conv_lhs => unfold parseLoop
  exact if_neg h

/-- How arguments are accepted, with the settings `args'` in the end. -/
inductive Parses (args' : QueryArgs) : List String → QueryArgs → Prop where
  /-- There are no more arguments. -/
  | done : Parses args' [] args'
  /-- A flag takes the next argument, which is not empty. -/
  | valued {flag next : String} {rest : List String} {args stored : QueryArgs}
      (hvalued : flag ∈ valuedFlags) (hempty : ¬next.isEmpty = true)
      (hstore : storeFlag flag next args = .ok stored) (hrest : Parses args' rest stored) :
      Parses args' (flag :: next :: rest) args
  /-- `--json` takes none. -/
  | json {rest : List String} {args : QueryArgs}
      (hrest : Parses args' rest { args with json := true }) :
      Parses args' ("--json" :: rest) args
  /-- What is no flag at all is skipped. -/
  | skipped {arg : String} {rest : List String} {args : QueryArgs} (hvalued : arg ∉ valuedFlags)
      (hjson : ¬arg = "--json") (hhelp : ¬(arg = "--help" ∨ arg = "-h"))
      (hflag : ¬"--".toList.isPrefixOf arg.toList = true)
      (hrest : Parses args' rest args) : Parses args' (arg :: rest) args

theorem parses_of_parseLoop (h : parseLoop argv args = .ok args') :
    Parses args' argv args := by
  induction argv, args using parseLoop.induct with
  -- the cases are the branches of the loop, and five of them end the command
  | case1 args =>
    cases h
    exact .done
  | case2 flag args hvalued => simp [parseLoop, hvalued] at h
  | case3 flag args hvalued next rest hempty => simp [parseLoop, hvalued, hempty] at h
  | case4 flag args hvalued next rest hempty exit hstore =>
    simp [parseLoop, hvalued, hempty, hstore] at h
  | case5 flag args hvalued next rest hempty stored hstore ih =>
    simp only [parseLoop, hvalued, hempty, hstore, if_true] at h
    exact .valued hvalued hempty hstore (ih h)
  | case6 rest args hvalued ih =>
    rw [parseLoop_of_not_valued hvalued, if_pos rfl] at h
    exact .json (ih h)
  | case7 flag rest args hvalued hjson hhelp =>
    rw [parseLoop_of_not_valued hvalued, if_neg hjson, if_pos hhelp] at h
    cases h
  | case8 flag rest args hvalued hjson hhelp hflag =>
    rw [parseLoop_of_not_valued hvalued, if_neg hjson, if_neg hhelp, if_pos hflag] at h
    cases h
  | case9 flag rest args hvalued hjson hhelp hflag ih =>
    rw [parseLoop_of_not_valued hvalued, if_neg hjson, if_neg hhelp, if_neg hflag] at h
    exact .skipped hvalued hjson hhelp hflag (ih h)

/-- **What is parsed stays parsed.** -/
theorem Parses.append (h : Parses args' argv args) :
    parseLoop (argv ++ more) args = parseLoop more args' := by
  induction h with
  | done => rfl
  | valued hvalued hempty hstore _ ih =>
    rw [← ih]
    simp only [List.cons_append, parseLoop, hvalued, hempty, hstore, if_true]
    rfl
  | json _ ih => rw [List.cons_append, parseLoop_of_not_valued (by decide), if_pos rfl, ih]
  | skipped hvalued hjson hhelp hflag _ ih =>
    rw [List.cons_append, parseLoop_of_not_valued hvalued, if_neg hjson, if_neg hhelp,
      if_neg hflag, ih]

theorem le_of_integerFrom {bound : ℤ} {msg next : String} {n : ℕ}
    (h : integerFrom bound msg next = .ok n) : bound ≤ n := by
  unfold integerFrom at h
  split at h
  · split_ifs at h with hrefused
    cases h
    obtain ⟨hint, hbelow⟩ := not_or.1 hrefused
    rw [Rat.eq_num_of_isInt (not_not.1 hint), Int.cast_lt] at hbelow
    exact (not_lt.1 hbelow).trans (Int.self_le_toNat _)
  · cases h

theorem storeFlag_limit {flag next : String} (h : storeFlag flag next args = .ok args')
    (hpos : 0 < args.limit) : 0 < args'.limit := by
  unfold storeFlag at h
  split_ifs at h
  iterate 4
    · cases h
      exact hpos
  · rcases hlimit : integerFrom 1 "--limit must be a positive integer" next with _ | limit
    · rw [hlimit] at h
      cases h
    · rw [hlimit] at h
      cases h
      exact_mod_cast le_of_integerFrom hlimit
  · rcases hoffset : integerFrom 0 "--offset must be a non-negative integer" next with
      _ | offset <;> rw [hoffset] at h <;> cases h
    exact hpos

/-- No arguments are accepted with a limit of 0. -/
theorem Parses.limit_pos (h : Parses args' argv args) (hpos : 0 < args.limit) :
    0 < args'.limit := by
  induction h with
  | done => exact hpos
  | valued _ _ hstore _ ih => exact ih (storeFlag_limit hstore hpos)
  | json _ ih => exact ih hpos
  | skipped _ _ _ _ _ ih => exact ih hpos

/-- What is accepted has an address, and comes from the loop. -/
theorem parseArgs_eq_ok_iff :
    parseArgs dbPath argv = .ok args ↔
      parseLoop argv (defaultArgs dbPath) = .ok args ∧ args.address.isEmpty = false := by
  unfold parseArgs
  rcases parseLoop argv (defaultArgs dbPath) with exit | parsed
  · simp
  · simp only [Except.ok.injEq]
    split_ifs with hempty
    · refine iff_of_false nofun ?_
      rintro ⟨rfl, hnot⟩
      exact absurd hempty (Bool.eq_false_iff.1 hnot)
    · simp only [Except.ok.injEq]
      refine ⟨?_, And.left⟩
      rintro rfl
      exact ⟨rfl, Bool.eq_false_iff.2 hempty⟩

theorem limit_pos_of_parseArgs (h : parseArgs dbPath argv = .ok args) : 0 < args.limit :=
  (parses_of_parseLoop (parseArgs_eq_ok_iff.1 h).1).limit_pos (Nat.succ_pos 99)

/-- **The offset that is told is taken**: added to the arguments, it replaces the one before. -/
theorem parseArgs_offset (h : parseArgs dbPath argv = .ok args) {offset : ℕ}
    (hoffset : offset < 2 ^ 53) :
    parseArgs dbPath (argv ++ ["--offset", toString offset]) =
      .ok { args with offset } := by
  obtain ⟨hloop, haddress⟩ := parseArgs_eq_ok_iff.1 h
  have hinteger : integerFrom 0 "--offset must be a non-negative integer"
      (toString offset) = .ok offset := by
    rw [integerFrom, toNumber_toString hoffset]
    simp [Rat.isInt]
  have hstore : storeFlag "--offset" (toString offset) args = .ok { args with offset } := by
    unfold storeFlag
    iterate 5 rw [if_neg (by decide)]
    rw [hinteger]
    rfl
  have hempty : ¬(toString offset).isEmpty = true := by
    rw [String.isEmpty_iff]
    exact Nat.repr_ne_empty
  have hvalued : "--offset" ∈ valuedFlags := by decide
  refine parseArgs_eq_ok_iff.2 ⟨?_, haddress⟩
  rw [(parses_of_parseLoop hloop).append]
  simp only [parseLoop, hvalued, hempty, hstore, if_true]
  rfl

end

/-! ### Following the offsets -/

/-- What a query selects, latest first, before it is cut to a page. -/
def ComplianceDb.results (args : QueryArgs) (db : ComplianceDb) : List RawEvent :=
  (((db.events.zipIdx 1).filter fun row ↦
    decide (Matches args.address args.options row.1)).insertionSort newer).map Prod.fst

section

variable {argv : List String} {args : QueryArgs} {dbPath : String} {db db' : ComplianceDb}
  {dbs : List ComplianceDb}

theorem queryEventsByAddress_eq_page :
    db.queryEventsByAddress args.address args.options =
      page args.limit args.offset (db.results args) := by
  rw [page, ComplianceDb.results, ← List.map_drop, ← List.map_take]
  rfl

theorem length_results_le : (db.results args).length ≤ db.events.length := by
  rw [ComplianceDb.results, List.length_map, List.length_insertionSort]
  exact (List.length_filter_le _ _).trans List.length_zipIdx.le

/-- **The command, followed, reads page by page.** -/
theorem follow_eq_readAll (hargs : parseArgs dbPath argv = .ok args)
    (hjson : args.json = false) (hfits : args.Fits)
    (hsize : ∀ db ∈ dbs, db.events.length < 2 ^ 53) :
    follow dbPath argv dbs =
      readAll args.limit args.offset (dbs.map (ComplianceDb.results args)) := by
  induction dbs generalizing argv args with
  | nil => rfl
  | cons db dbs ih =>
    obtain ⟨hnow, hsize⟩ := List.forall_mem_cons.1 hsize
    have hpos : 0 < args.limit := limit_pos_of_parseArgs hargs
    have hrun : runQuery dbPath argv db =
        .ok (printed args (page args.limit args.offset (db.results args))) := by
      rw [← queryEventsByAddress_eq_page, runQuery, hargs]
      exact if_pos hfits
    rw [List.map_cons]
    -- a full page tells an offset, which the next command is given as text
    by_cases hfull : (page args.limit args.offset (db.results args)).length = args.limit
    · have hoffset : args.offset + args.limit < 2 ^ 53 :=
        ((le_length_of_full hpos hfull).trans length_results_le).trans_lt hnow
      have hlisting : printed args (page args.limit args.offset (db.results args)) =
          .listing (page args.limit args.offset (db.results args))
            (some (args.offset + args.limit)) := by
        rw [printed, hjson, hfull, if_neg hpos.ne', if_pos rfl]
        rfl
      have hnext := ih (parseArgs_offset hargs hoffset) hjson
        ⟨hfits.1, hoffset.trans (by decide)⟩ hsize
      rw [readAll_of_full hfull, follow, hrun, hlisting]
      exact congrArg (Option.map _) hnext
    -- a short one tells none, nor does an empty one
    · rw [readAll_of_short hfull, follow, hrun, printed, hjson]
      by_cases hnone : (page args.limit args.offset (db.results args)).length = 0
      · rw [List.length_eq_zero_iff.1 hnone]
        rfl
      · rw [if_neg hnone, if_neg hfull]
        rfl

/-- Rows are told apart by their numbers. -/
theorem newer_antisymm {events : List RawEvent} {x y : RawEvent × ℕ} (hx : x ∈ events.zipIdx 1)
    (hy : y ∈ events.zipIdx 1) (hxy : newer x y) (hyx : newer y x) : x = y := by
  have hid : x.2 = y.2 := by
    unfold newer at hxy hyx
    omega
  obtain ⟨-, hx⟩ := List.mem_zipIdx_iff_le_and_getElem?_sub.1 hx
  obtain ⟨-, hy⟩ := List.mem_zipIdx_iff_le_and_getElem?_sub.1 hy
  rw [hid] at hx
  exact Prod.ext (Option.some.inj (hx.symm.trans hy)) hid

/-- **Later rows come first**, and leave the others as they are. -/
theorem results_suffix (args : QueryArgs) {rows : List RawEvent}
    (hevents : db'.events = db.events ++ rows)
    (hlater : ∀ r ∈ rows, ∀ e ∈ db.events, e.ledgerSequence ≤ r.ledgerSequence) :
    db.results args <:+ db'.results args := by
  -- the rows that match, with the running numbers they have got
  set old := (db.events.zipIdx 1).filter fun row ↦
    decide (Matches args.address args.options row.1) with hold
  set new := (rows.zipIdx (1 + db.events.length)).filter fun row ↦
    decide (Matches args.address args.options row.1) with hnew
  have hsplit : ((db'.events.zipIdx 1).filter fun row ↦
      decide (Matches args.address args.options row.1)) = old ++ new := by
    rw [hevents, List.zipIdx_append, List.filter_append]
  have hmem : ∀ x ∈ old ++ new, x ∈ db'.events.zipIdx 1 := fun x hx ↦ by
    rw [← hsplit] at hx
    exact List.mem_of_mem_filter hx
  -- a new row is of the same ledger at least, and has a later number
  have hfront : ∀ x ∈ new, ∀ y ∈ old, newer x y := by
    intro x hx y hy
    have hx' := List.mem_of_mem_filter hx
    have hy' := List.mem_of_mem_filter hy
    have hledger := hlater x.1 (List.fst_mem_of_mem_zipIdx hx') y.1 (List.fst_mem_of_mem_zipIdx hy')
    have hlow := List.le_snd_of_mem_zipIdx hx'
    have hhigh := List.snd_lt_of_mem_zipIdx hy'
    unfold newer
    omega
  -- so in the order of the listing all new rows stand before all old ones
  have hsort : (old ++ new).insertionSort newer =
      new.insertionSort newer ++ old.insertionSort newer := by
    have hperm : (new.insertionSort newer ++ old.insertionSort newer).Perm (old ++ new) :=
      ((List.perm_insertionSort newer _).append (List.perm_insertionSort newer _)).trans
        List.perm_append_comm
    refine List.Perm.eq_of_pairwise (fun x y hx hy ↦ ?_) (List.pairwise_insertionSort newer _)
      (List.pairwise_append.2 ⟨List.pairwise_insertionSort newer _,
        List.pairwise_insertionSort newer _, fun x hx y hy ↦ ?_⟩)
      ((List.perm_insertionSort newer _).trans hperm.symm)
    · exact newer_antisymm (hmem x ((List.mem_insertionSort newer).1 hx))
        (hmem y (hperm.mem_iff.1 hy))
    · exact hfront x ((List.mem_insertionSort newer).1 hx) y ((List.mem_insertionSort newer).1 hy)
  rw [ComplianceDb.results, ComplianceDb.results, hsplit, hsort, List.map_append]
  exact List.suffix_append _ _

end

/-! ### While the indexer goes on -/

section

variable {chain : Chain} {contractIds : List String}

/-- Rows are only added. -/
theorem events_grow (chain : Chain) (later earlier : List (Config × RpcAnswers)) :
    ((operated chain).final earlier).events <+:
      ((operated chain).final (later ++ earlier)).events := by
  induction later with
  | nil => exact List.prefix_refl _
  | cons i later ih =>
    refine ih.trans ?_
    rcases poll_cases i.1 chain i.2 ((operated chain).final (later ++ earlier)) with
      hsame | ⟨_, _, _, _, hstep⟩
    · exact (congrArg ComplianceDb.events hsame.symm) ▸ List.prefix_refl _
    · exact ⟨_, hstep.events_eq.symm⟩

/-- After whole polls, the rows are in the order of their ledgers. -/
theorem ordered_events {inputs : List (Config × RpcAnswers)}
    (hids : ∀ i ∈ inputs, i.1.contractIds = contractIds)
    (hwhole : ∀ e ∈ (operated chain).history inputs, Whole e.input.1 chain e.input.2 e.pre) :
    ((operated chain).final inputs).events.Pairwise fun e e' ↦
      e.ledgerSequence ≤ e'.ledgerSequence := by
  rcases indexed_of_whole chain contractIds inputs hids hwhole with
    hfresh | ⟨_, _, first, through, -, -, hindexed⟩
  · rw [hfresh]
    exact .nil
  · rw [hindexed, Chain.indexed, ComplianceDb.events_setLastIndexedLedger,
      (ComplianceDb.applyEvents_spec _ _).1, ComplianceDb.events_fresh, List.nil_append, Chain.rows]
    have hordered := (chain.ordered.filter fun e ↦ decide (e.contractId ∈ contractIds)).filter
      fun e ↦ decide (first ≤ e.ledger ∧ e.ledger ≤ through)
    refine List.Pairwise.filterMap _ (fun a a' hle b hb b' hb' ↦ ?_) hordered
    rw [decodeEvent_ledgerSequence hb, decodeEvent_ledgerSequence hb']
    exact hle

/-- What was selected is selected later, behind what is new. -/
theorem results_suffix_of_suffix (args : QueryArgs) {inputs earlier : List (Config × RpcAnswers)}
    (hids : ∀ i ∈ inputs, i.1.contractIds = contractIds)
    (hwhole : ∀ e ∈ (operated chain).history inputs, Whole e.input.1 chain e.input.2 e.pre)
    (h : earlier <:+ inputs) :
    ((operated chain).final earlier).results args <:+ ((operated chain).final inputs).results
      args := by
  obtain ⟨later, rfl⟩ := h
  obtain ⟨rows, hrows⟩ := events_grow chain later earlier
  have hordered := ordered_events hids hwhole
  rw [← hrows] at hordered
  exact results_suffix args hrows.symm fun r hr e he ↦
    (List.pairwise_append.1 hordered).2.2 e he r hr

end

/-- **Following the offsets skips nothing, and ends.** While the indexer makes whole polls, a reader
repeats the command with the offset it was told, each time on the database as it is then, up to a
page that is not full. If it makes it so often that it has asked for more events than there are in
the end, it has come to such a page, and over a database that stands still it therefore does. Then
every event that the first command could have listed from its offset on has been listed, in order;
and each exactly once, if the database has stood still. -/
theorem follow_misses_nothing (dbPath : String) (chain : Chain) (contractIds : List String)
    (inputs : List (Config × RpcAnswers)) (hids : ∀ i ∈ inputs, i.1.contractIds = contractIds)
    (hwhole : ∀ e ∈ (operated chain).history inputs, Whole e.input.1 chain e.input.2 e.pre)
    (first : List (Config × RpcAnswers)) (moments : List (List (Config × RpcAnswers)))
    (hmoments : (first :: moments ++ [inputs]).Pairwise (· <:+ ·))
    (hsize : ((operated chain).final inputs).events.length < 2 ^ 53)
    {argv : List String} {args : QueryArgs} (hargs : parseArgs dbPath argv = .ok args)
    (hjson : args.json = false) (hfits : args.Fits) :
    ((((operated chain).final inputs).results args).length <
        args.offset + (first :: moments).length * args.limit →
      ∃ pages, follow dbPath argv ((first :: moments).map (operated chain).final) = some pages) ∧
    ∀ pages, follow dbPath argv ((first :: moments).map (operated chain).final) = some pages →
      ((((operated chain).final first).results args).drop args.offset).Sublist pages.flatten ∧
      ((∀ m ∈ moments, (operated chain).final m = (operated chain).final first) →
        pages.flatten = (((operated chain).final first).results args).drop args.offset) := by
  obtain ⟨hgrows, -, hlast⟩ := List.pairwise_append.1 hmoments
  have hsuffix : ∀ m ∈ first :: moments, m <:+ inputs := fun m hm ↦
    hlast m hm inputs (List.mem_singleton_self inputs)
  have hids' : ∀ m ∈ first :: moments, ∀ i ∈ m, i.1.contractIds = contractIds := fun m hm i hi ↦
    hids i ((hsuffix m hm).subset hi)
  have hwhole' : ∀ m ∈ first :: moments, ∀ e ∈ (operated chain).history m,
      Whole e.input.1 chain e.input.2 e.pre := fun m hm e he ↦
    hwhole e ((System.history_suffix _ (hsuffix m hm)).subset he)
  have hrooms : ∀ db ∈ (first :: moments).map (operated chain).final,
      db.events.length < 2 ^ 53 := by
    rintro _ hdb
    obtain ⟨m, hm, rfl⟩ := List.mem_map.1 hdb
    obtain ⟨later, rfl⟩ := hsuffix m hm
    exact (events_grow chain later m).length_le.trans_lt hsize
  -- what is left is about offsets into a list that grows at its front
  rw [follow_eq_readAll hargs hjson hfits hrooms, List.map_map]
  refine ⟨fun hmore ↦ ?_, fun pages hpages ↦ ⟨?_, fun hsame ↦ ?_⟩⟩
  · refine exists_readAll (limit_pos_of_parseArgs hargs) (List.cons_ne_nil _ _)
      (fun l hl ↦ ?_) (by rwa [List.length_map])
    obtain ⟨m, hm, rfl⟩ := List.mem_map.1 hl
    exact (results_suffix_of_suffix args hids hwhole (hsuffix m hm)).length_le
  · have hfront : ((first :: moments).map
        (ComplianceDb.results args ∘ (operated chain).final)).Pairwise (· <:+ ·) :=
      List.pairwise_map.2 (hgrows.imp_of_mem fun {m m'} _ hm' h ↦
        results_suffix_of_suffix args (hids' m' hm') (hwhole' m' hm') h)
    exact sublist_readAll hfront hpages
  · refine flatten_readAll (fun l hl ↦ ?_) hpages
    obtain ⟨m, hm, rfl⟩ := List.mem_map.1 hl
    rcases List.mem_cons.1 hm with rfl | hm
    · rfl
    · exact congrArg (ComplianceDb.results args) (hsame m hm)

/-- An account. -/
def listedAccount : String := "GAAAAAAAAAAAAAAAAAAAAAAAAAAAAAAAAAAAAAAAAAAAAAAAAAAAAWHF"

/-- It is put on an allowlist at ledgers 3 and 7. -/
def listedChain : Chain where
  events := [(3, 0), (7, 1)].map fun (ledger, token) ↦
    { frozenEvent ledger token with
      topic := ["AAAADwAAAAlhbGxvd19hZGQAAAA=",
        "AAAAEgAAAAAAAAAAAAAAAAAAAAAAAAAAAAAAAAAAAAAAAAAAAAAAAAAAAAA="]
      value := "AAAAAQ==" }
  ordered := by simp [PagedLog.Ordered, frozenEvent]
  tokens := by decide

/-- Its events, one by one. -/
def listedArgs : QueryArgs :=
  { defaultArgs "compliance.db" with address := listedAccount, limit := 1 }

/-- The command is made for the first time when the second event is not there yet, and three times
in all. -/
theorem follow_misses_nothing_listedChain :
    ∃ pages, follow "compliance.db" ["--address", listedAccount, "--limit", "1"]
        ([backfillAndGoOn.tail, backfillAndGoOn, backfillAndGoOn].map
          (operated listedChain).final) = some pages ∧
      ((((operated listedChain).final backfillAndGoOn.tail).results listedArgs).drop
        listedArgs.offset).Sublist pages.flatten := by
  have hargs : parseArgs "compliance.db" ["--address", listedAccount, "--limit", "1"] =
      .ok listedArgs := by decide +kernel
  have hwhole : ∀ e ∈ (operated listedChain).history backfillAndGoOn,
      Whole e.input.1 listedChain e.input.2 e.pre := by
    simp only [backfillAndGoOn, System.history_cons, List.forall_mem_cons, System.history_nil]
    exact ⟨⟨by decide, by decide +kernel⟩, ⟨by decide, by decide +kernel⟩,
      ⟨by decide, by decide +kernel⟩, by simp⟩
  have hmoments : ([backfillAndGoOn.tail, backfillAndGoOn, backfillAndGoOn] ++
      [backfillAndGoOn]).Pairwise (· <:+ ·) := by
    simp [List.tail_suffix]
  have hsize : ((operated listedChain).final backfillAndGoOn).events.length < 2 ^ 53 := by
    decide +kernel
  obtain ⟨hends, hlists⟩ := follow_misses_nothing "compliance.db" listedChain
    breakerConfig.contractIds backfillAndGoOn (by decide +kernel) hwhole backfillAndGoOn.tail
    [backfillAndGoOn, backfillAndGoOn] hmoments hsize hargs rfl (by decide)
  obtain ⟨pages, hpages⟩ := hends (by decide +kernel)
  exact ⟨pages, hpages, (hlists pages hpages).1⟩

end Indexer
