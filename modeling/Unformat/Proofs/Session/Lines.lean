import Unformat.Proofs.Scan.Wrapping
import Unformat.Proofs.Session.Plans
import Unformat.Session.Runs

/-!
# Scans of lines in a session

A session keeps the parts of an iteration under numbers.  A request takes them out, goes on as the
iteration does, and puts them back.  Whether the lines of a source are scanned or those of a byte
reader that was made for it, makes no difference; over a line reader that was made for the source,
only the first line is scanned.
-/

namespace Unformat.Session

/-! ## Readers under numbers -/

/-- The numbers of a reader are those of readers of the session, and no line reader occurs twice. -/
structure Places (session : Session) (entry : ReaderEntry) : Prop where
  base_lt : entry.base < session.bases.length
  line_lt : ∀ number ∈ entry.lines, number < session.lineReaders.length
  nodup : entry.lines.Nodup

theorem getElem?_foldl_set {numbers : List Nat} (flags all : List Bool) {other : Nat}
    (elsewhere : other ∉ numbers) :
    ((numbers.zip flags).foldl (fun all (number, done) => all.set number done) all)[other]? =
      all[other]? := by
  induction numbers generalizing flags all with
  | nil => rfl
  | cons number numbers ih =>
      cases flags with
      | nil => rfl
      | cons done flags =>
          have differs := List.ne_of_not_mem_cons elsewhere
          have later := List.not_mem_of_not_mem_cons elsewhere
          rw [List.zip_cons_cons, List.foldl_cons, ih _ _ later,
            List.getElem?_set_ne (Ne.symm differs)]

theorem map_foldl_set {numbers : List Nat} (nodup : numbers.Nodup) {flags : List Bool}
    (same : flags.length = numbers.length) (all : List Bool)
    (within : ∀ number ∈ numbers, number < all.length) :
    (numbers.map fun number =>
      (((numbers.zip flags).foldl (fun all (number, done) => all.set number done)
        all)[number]?).getD false) = flags := by
  induction numbers generalizing flags all with
  | nil => exact (List.length_eq_zero_iff.mp same).symm
  | cons number numbers ih =>
      cases flags with
      | nil => cases same
      | cons done flags =>
          obtain ⟨alone, later⟩ := List.nodup_cons.mp nodup
          have bound := within number List.mem_cons_self
          have rest := ih later (Nat.succ.inj same) (all.set number done) (by
            intro other member
            rw [List.length_set]
            exact within other (List.mem_cons_of_mem _ member))
          simp only [List.zip_cons_cons, List.foldl_cons, List.map_cons]
          rw [getElem?_foldl_set _ _ alone, List.getElem?_set_self bound, rest]
          rfl

theorem loadReader_storeReader {session : Session} {entry : ReaderEntry}
    (places : session.Places entry) {reader : Reader}
    (same : reader.lines.length = entry.lines.length) :
    (session.storeReader entry reader).loadReader entry = reader := by
  obtain ⟨base, lines⟩ := reader
  have flags := map_foldl_set places.nodup same session.lineReaders places.line_lt
  simp only [loadReader, storeReader, List.getElem?_set_self places.base_lt, Option.getD_some]
  rw [flags]

theorem length_foldl_set (pairs : List (Nat × Bool)) (all : List Bool) :
    (pairs.foldl (fun all (number, done) => all.set number done) all).length = all.length := by
  induction pairs generalizing all with
  | nil => rfl
  | cons pair pairs ih => rw [List.foldl_cons, ih, List.length_set]

theorem Places.store {session : Session} {entry : ReaderEntry} (places : session.Places entry)
    (other : ReaderEntry) (reader : Reader) : (session.storeReader other reader).Places entry where
  base_lt := by
    simp only [storeReader, List.length_set]
    exact places.base_lt
  line_lt := by
    simp only [storeReader, length_foldl_set]
    exact places.line_lt
  nodup := places.nodup

theorem Places.marked {session : Session} {entry : ReaderEntry} (places : session.Places entry)
    (plan : Nat) : (session.marked plan).Places entry :=
  ⟨places.base_lt, places.line_lt, places.nodup⟩

theorem loadReader_marked (session : Session) (plan : Nat) (entry : ReaderEntry) :
    (session.marked plan).loadReader entry = session.loadReader entry := rfl

/-! ## Names -/

theorem lookup_keep {α : Type} (entries : List (String × α)) (name : String) (entry : α) :
    (keep entries name entry).lookup name = some entry := by
  rw [keep, List.lookup_cons, beq_self_eq_true]

theorem perform_find {α : Type} {entries : List (String × α)} {name : String} {entry : α}
    (found : entries.lookup name = some entry) (session : Session) :
    perform (find entries name) session = (.ok entry, session) := by
  rw [find, perform_yielding, found]

/-! ## Iterations -/

/-- What the session keeps under the name is the iteration. -/
def Holds (session : Session) (name : String) (iteration : LineIteration) : Prop :=
  ∃ entry shared, session.iterations.lookup name = some entry ∧
    session.plans[entry.plan]? = some shared ∧ shared.compiled = iteration.compiled ∧
      entry.progress = .lines iteration.scan ∧
        session.loadReader entry.reader = iteration.reader ∧ session.Places entry.reader

/-- An iteration that is kept is held. -/
theorem holds_keep {session : Session} {plan : Nat} {shared : SharedPlan}
    (planned : session.plans[plan]? = some shared) {entry : ReaderEntry}
    (places : session.Places entry) (name : String) (scan : LineScan) :
    ({ session with
        iterations := keep session.iterations name ⟨plan, entry, .lines scan⟩ } : Session).Holds
      name ⟨shared.compiled, scan, session.loadReader entry⟩ :=
  ⟨⟨plan, entry, .lines scan⟩, shared, lookup_keep _ _ _, planned, rfl, rfl, rfl,
    places.base_lt, places.line_lt, places.nodup⟩

/-- A request goes on as the iteration does. -/
theorem Holds.next {session : Session} {name : String} {iteration : LineIteration}
    (holds : session.Holds name iteration)
    (same : iteration.next.2.reader.lines.length = iteration.reader.lines.length) :
    ∃ after, perform (next name) session =
        (.ok (iteration.next.1, .lines iteration.next.2.scan), after) ∧
      after.Holds name iteration.next.2 := by
  obtain ⟨⟨plan, place, progress⟩, shared, found, planned, compiles, rfl, loads, places⟩ := holds
  simp only at planned loads places
  have looked : perform (Session.iteration name) session =
      (.ok ⟨plan, place, .lines iteration.scan⟩, session) := perform_find found session
  have has : perform (planAt plan) session = (.ok shared, session) := by
    rw [planAt, perform_bind_get, planned]
    rfl
  have ran : perform (withReader place (advance shared.compiled (.lines iteration.scan))) session =
      (.ok (iteration.next.1, .lines iteration.next.2.scan),
        session.storeReader place iteration.next.2.reader) := by
    have unfolded : perform (withReader place (advance shared.compiled (.lines iteration.scan)))
        session = (.ok (advance shared.compiled (.lines iteration.scan)
          (session.loadReader place)).1, session.storeReader place
            (advance shared.compiled (.lines iteration.scan) (session.loadReader place)).2) := rfl
    rw [unfolded, loads, compiles]
    rfl
  have fits : iteration.next.2.reader.lines.length = place.lines.length := by
    rw [same, ← loads, loadReader, List.length_map]
  rw [Session.next, perform_bind_of_ok looked, perform_bind_of_ok has, perform_bind_of_ok ran]
  have kept := places.store place iteration.next.2.reader
  have loaded := loadReader_storeReader places fits
  cases ran : hasRun (.lines iteration.next.2.scan) with
  | true =>
      have marks : ((session.storeReader place iteration.next.2.reader).marked plan).plans[plan]? =
          some { shared with isCompiled := true } := by
        simp [Session.marked, storeReader, planned]
      have held := holds_keep marks (kept.marked plan) name iteration.next.2.scan
      rw [loadReader_marked, loaded, compiles] at held
      simp only [ran, if_true]
      exact ⟨_, rfl, held⟩
  | false =>
      have plannedStill :
          (session.storeReader place iteration.next.2.reader).plans[plan]? = some shared := planned
      have held := holds_keep plannedStill kept name iteration.next.2.scan
      rw [loaded, compiles] at held
      simp only [ran, Bool.false_eq_true, if_false]
      exact ⟨_, rfl, held⟩

/-! ## Starting -/

variable {session : Session} {scannerName : String} {scanner : ScannerEntry} {shared : SharedPlan}
  {onError : Option String} {errors : LineErrors}

/-- The session in which a line reader is put around the reader of an entry. -/
def withLineReader (session : Session) : Session :=
  { session with lineReaders := session.lineReaders ++ [false] }

theorem Places.with_line_reader {entry : ReaderEntry} (places : session.Places entry) :
    session.withLineReader.Places
        { entry with lines := session.lineReaders.length :: entry.lines } ∧
      session.withLineReader.loadReader
          { entry with lines := session.lineReaders.length :: entry.lines } =
        (session.loadReader entry).byLine := by
  refine ⟨⟨places.base_lt, ?_, ?_⟩, ?_⟩
  · intro number member
    rw [withLineReader, List.length_append, List.length_singleton]
    rcases List.mem_cons.mp member with rfl | member
    · exact Nat.lt_succ_self _
    · exact Nat.lt_succ_of_lt (places.line_lt number member)
  · refine List.nodup_cons.mpr ⟨fun member => ?_, places.nodup⟩
    exact Nat.lt_irrefl _ (places.line_lt _ member)
  · have others : entry.lines.map (fun number =>
        ((session.lineReaders ++ [false])[number]?).getD false) =
          entry.lines.map fun number => (session.lineReaders[number]?).getD false := by
      refine List.map_congr_left fun number member => ?_
      rw [List.getElem?_append_left (places.line_lt number member)]
    simp only [loadReader, withLineReader, List.map_cons, others, Reader.byLine, Reader.around]
    simp

/-- A scan of the lines of a reader is kept. -/
theorem exists_holds_of_openInput (found : session.scanners.lookup scannerName = some scanner)
    (planned : session.plans[scanner.plan]? = some shared)
    (chosen : Scanner.lineErrors scanner.config onError = .ok errors) {input : Input}
    {entry : ReaderEntry} {middle : Session}
    (known : ∀ inner, input = .reader inner → ∃ entry, session.readers.lookup inner = some entry)
    (opened : perform (openInput scanner.config.bufferSize input) session = (.ok entry, middle))
    (kept : middle.plans = session.plans) (places : middle.Places entry) (name : String) :
    ∃ after, perform (startLines name scannerName input onError) session = (.ok (), after) ∧
      after.Holds name ⟨shared.compiled, { errors }, (middle.loadReader entry).byLine⟩ := by
  have looked : perform (Session.scanner scannerName) session = (.ok scanner, session) :=
    perform_find found session
  obtain ⟨around, loads⟩ := places.with_line_reader
  have start : perform (startLines name scannerName input onError) session =
      perform (do
        let errors ← yielding (Scanner.lineErrors scanner.config onError)
        let entry ← addLineReader (← openInput scanner.config.bufferSize input)
        keepIteration name { plan := scanner.plan, reader := entry, progress := .lines { errors } })
        session := by
    rw [startLines, perform_bind_of_ok looked]
    cases input with
    | source source => rfl
    | reader inner =>
        obtain ⟨entry, there⟩ := known inner rfl
        have checked : perform (discard (reader inner)) session = (.ok ⟨⟩, session) := by
          have same : perform (reader inner) session = (.ok entry, session) :=
            perform_find there session
          rw [perform_discard, same]
          rfl
        exact perform_bind_of_ok checked _
  have parsed : perform (yielding (Scanner.lineErrors scanner.config onError)) session =
      (.ok errors, session) := by
    rw [perform_yielding, chosen]
  rw [start, perform_bind_of_ok parsed, perform_bind_of_ok opened]
  have plans : middle.withLineReader.plans[scanner.plan]? = some shared := by
    rw [← planned, ← kept]
    rfl
  have held := holds_keep plans around name { errors }
  rw [loads] at held
  exact ⟨_, rfl, held⟩

/-! ## Sources -/

/-- The session in which a byte reader is added. -/
def withBase (session : Session) (base : ByteReader) : Session :=
  { session with bases := session.bases ++ [base] }

theorem perform_openInput {size : Int} {source : Source} {base : ByteReader}
    (opens : Reader.ofSource size source = .ok ⟨base, []⟩) (session : Session) :
    perform (openInput size (.source source)) session =
      (.ok ⟨session.bases.length, []⟩, session.withBase base) := by
  have given : perform (yielding (Reader.ofSource size source)) session =
      (.ok ⟨base, []⟩, session) := by
    rw [perform_yielding, opens]
  rw [openInput, perform_bind_of_ok given, addReader, perform_bind_get]
  simp only [List.length_nil, List.range_zero, List.map_nil, List.append_nil]
  rfl

theorem places_withBase (session : Session) (base : ByteReader) :
    (session.withBase base).Places ⟨session.bases.length, []⟩ ∧
      (session.withBase base).loadReader ⟨session.bases.length, []⟩ = ⟨base, []⟩ := by
  refine ⟨⟨?_, by simp, List.nodup_nil⟩, ?_⟩
  · simp [withBase]
  · simp [withBase, loadReader]

/-- The ways to scan the lines of a source: directly, or over a reader that is made for it first,
of bytes or by line. -/
inductive Way where
  | direct
  | bytes
  | byLine
  deriving DecidableEq

/-- Start to scan the lines of a source, with as many bytes asked for in either reader. -/
def startOver (way : Way) (name scannerName readerName : String) (source : Source) (size : Int)
    (onError : Option String) : Action Unit :=
  match way with
  | .direct => startLines name scannerName (.source source) onError
  | .bytes => do
      makeReader readerName (.source source) size false
      startLines name scannerName (.reader readerName) onError
  | .byLine => do
      makeReader readerName (.source source) size true
      startLines name scannerName (.reader readerName) onError

/-- The iteration that is started over a byte reader. -/
def Way.iteration (way : Way) (compiled : Except PatternFault CompiledPlan) (errors : LineErrors)
    (base : ByteReader) : LineIteration :=
  match way with
  | .direct | .bytes => ⟨compiled, { errors }, ⟨base, [false]⟩⟩
  | .byLine => ⟨compiled, { errors }, ⟨base, [false, false]⟩⟩

/-- A reader that is made is there under its name. -/
theorem exists_holds_of_makeReader (found : session.scanners.lookup scannerName = some scanner)
    (planned : session.plans[scanner.plan]? = some shared)
    (chosen : Scanner.lineErrors scanner.config onError = .ok errors) {source : Source}
    {readerName : String} {size : Int} {byLine : Bool} {entry : ReaderEntry} {middle : Session}
    (made : perform (makeReader readerName (.source source) size byLine) session =
      (.ok (), { middle with readers := keep middle.readers readerName entry }))
    (scanners : middle.scanners = session.scanners) (plans : middle.plans = session.plans)
    (places : middle.Places entry) (name : String) :
    ∃ after, perform (do
        makeReader readerName (.source source) size byLine
        startLines name scannerName (.reader readerName) onError) session = (.ok (), after) ∧
      after.Holds name ⟨shared.compiled, { errors }, (middle.loadReader entry).byLine⟩ := by
  have there := lookup_keep middle.readers readerName entry
  rw [perform_bind_of_ok made]
  let after : Session := { middle with readers := keep middle.readers readerName entry }
  have opened : perform (openInput scanner.config.bufferSize (.reader readerName)) after =
      (.ok entry, after) := perform_find there after
  refine exists_holds_of_openInput (by rw [← found, ← scanners]) (by rw [← planned, ← plans]) chosen
    ?_ opened rfl ⟨places.base_lt, places.line_lt, places.nodup⟩ name
  rintro inner ⟨⟩
  exact ⟨entry, there⟩

theorem exists_holds_startOver (found : session.scanners.lookup scannerName = some scanner)
    (planned : session.plans[scanner.plan]? = some shared)
    (chosen : Scanner.lineErrors scanner.config onError = .ok errors) {source : Source}
    {base : ByteReader}
    (opens : Reader.ofSource scanner.config.bufferSize source = .ok ⟨base, []⟩) (way : Way)
    (name readerName : String) :
    ∃ after, perform (startOver way name scannerName readerName source scanner.config.bufferSize
        onError) session = (.ok (), after) ∧
      after.Holds name (way.iteration shared.compiled errors base) := by
  obtain ⟨places, loads⟩ := places_withBase session base
  have opened := perform_openInput opens session
  cases way with
  | direct =>
      obtain ⟨after, started, holds⟩ := exists_holds_of_openInput found planned chosen
        (by rintro inner ⟨⟩) opened rfl places name
      rw [loads] at holds
      exact ⟨after, started, holds⟩
  | bytes =>
      have made : perform (makeReader readerName (.source source) scanner.config.bufferSize false)
          session = (.ok (), { session.withBase base with
            readers := keep (session.withBase base).readers readerName
              ⟨session.bases.length, []⟩ }) := by
        rw [makeReader, if_neg Bool.false_ne_true, perform_bind_of_ok opened]
        rfl
      obtain ⟨after, started, holds⟩ :=
        exists_holds_of_makeReader found planned chosen made rfl rfl places name
      rw [loads] at holds
      exact ⟨after, started, holds⟩
  | byLine =>
      obtain ⟨around, loadsAround⟩ := places.with_line_reader
      have made : perform (makeReader readerName (.source source) scanner.config.bufferSize true)
          session = (.ok (), { (session.withBase base).withLineReader with
            readers := keep (session.withBase base).withLineReader.readers readerName
              ⟨session.bases.length, (session.withBase base).lineReaders.length :: []⟩ }) := by
        rw [makeReader, if_pos rfl, perform_bind_of_ok opened]
        rfl
      obtain ⟨after, started, holds⟩ :=
        exists_holds_of_makeReader found planned chosen made rfl rfl around name
      rw [loadsAround, loads] at holds
      exact ⟨after, started, holds⟩

/-! ## Requests one after the other -/

/-- The session after so many requests to an iteration. -/
def asking (name : String) : Nat → Session → Session
  | 0, session => session
  | asked + 1, session => (perform (next name) (asking name asked session)).2

/-- What a request to an iteration is answered after so many others. -/
def answer (name : String) (asked : Nat) (session : Session) :
    Except Failure (ScanStep × Progress) :=
  (perform (next name) (session.asking name asked)).1

/-- What an answer shows of the lines: values or a fault, and the faults that were put aside. -/
def shows :
    Except Failure (ScanStep × Progress) → Option (ScanStep × List (Nat × Diagnostic ScanFault))
  | .ok (step, .lines scan) => some (step, scan.failures)
  | _ => none

theorem Holds.asking {session : Session} {name : String} {iteration : LineIteration} {depth : Nat}
    (holds : session.Holds name iteration) (keeps : iteration.Depth depth) (asked : Nat) :
    (session.asking name asked).Holds name (iteration.after asked) ∧
      (iteration.after asked).Depth depth := by
  induction asked with
  | zero => exact ⟨holds, keeps⟩
  | succ asked ih =>
      obtain ⟨here, still⟩ := ih
      have later := still.next
      obtain ⟨after, came, there⟩ := here.next ((later 0).trans (still 0).symm)
      rw [Session.asking, came]
      exact ⟨there, later⟩

theorem Holds.answer {session : Session} {name : String} {iteration : LineIteration} {depth : Nat}
    {results : List (Except Scan.Stop (List Value))} (holds : session.Holds name iteration)
    (keeps : iteration.Depth depth) (tries : iteration.Tries results) (asked : Nat) :
    session.answer name asked = .ok ((iteration.scan.bringAfter asked results).1,
      .lines (iteration.scan.bringAfter asked results).2) := by
  obtain ⟨here, still⟩ := holds.asking keeps asked
  obtain ⟨after, came, _⟩ := here.next ((still.next 0).trans (still 0).symm)
  rw [Session.answer, came, ← tries.next_after asked]

/-- What a line brings after so many others, as an answer. -/
def brings (errors : LineErrors) (results : List (Except Scan.Stop (List Value))) (asked : Nat) :
    ScanStep × Progress :=
  let (step, scan) := LineScan.bringAfter asked results { errors }
  (step, .lines scan)

/-- The lines of a source can be scanned directly or over a byte reader that was made for it, with
the same answers: those that the attempts at all its lines bring, one after the other.  Over a line
reader that was made for it the attempt at the first line brings what it brings otherwise, and then
there is nothing more, so the answers are the same only where there is no second line. -/
theorem lines_over_line_reader_alike_iff
    (found : session.scanners.lookup scannerName = some scanner)
    (planned : session.plans[scanner.plan]? = some shared)
    (chosen : Scanner.lineErrors scanner.config onError = .ok errors) {source : Source}
    {base : ByteReader}
    (opens : Reader.ofSource scanner.config.bufferSize source = .ok ⟨base, []⟩)
    (steady : base.Steady) (name readerName : String) :
    ∃ (started : Way → Session) (results : List (Except Scan.Stop (List Value))),
      (∀ way, perform (startOver way name scannerName readerName source scanner.config.bufferSize
        onError) session = (.ok (), started way)) ∧
      results.length = (linesOf base.rest).length ∧
      (∀ asked, (started .direct).answer name asked = .ok (brings errors results asked)) ∧
      (∀ asked, (started .bytes).answer name asked = (started .direct).answer name asked) ∧
      (∀ asked, (started .byLine).answer name asked =
        .ok (brings errors (results.take 1) asked)) ∧
      ((∀ asked, shows ((started .byLine).answer name asked) =
          shows ((started .direct).answer name asked)) ↔
        (linesOf base.rest).length ≤ 1) := by
  have onLine := OnLine.start steady
  obtain ⟨results, yields⟩ := exists_yields shared.compiled onLine 0
  have lines : results.length = (linesOf base.rest).length := yields.length_eq onLine
  let iteration : LineIteration := ⟨shared.compiled, { errors }, ⟨base, [false]⟩⟩
  have before : LineIteration.Before shared.compiled 0 (.nth base.consumed base.chunks 0) results
      iteration := ⟨rfl, rfl, onLine, yields⟩
  choose started starts holds using fun way =>
    exists_holds_startOver found planned chosen opens way name readerName
  have direct (asked : Nat) : (started .direct).answer name asked =
      .ok (brings errors results asked) :=
    (holds .direct).answer before.depth before.tries asked
  have bytes (asked : Nat) : (started .bytes).answer name asked =
      .ok (brings errors results asked) :=
    (holds .bytes).answer before.depth before.tries asked
  have byLine (asked : Nat) : (started .byLine).answer name asked =
      .ok (brings errors (results.take 1) asked) :=
    (holds .byLine).answer before.depth_doubled before.tries_doubled asked
  refine ⟨started, results, starts, lines, direct,
    fun asked => (bytes asked).trans (direct asked).symm, byLine, ?_⟩
  rw [← lines]
  constructor
  · intro alike
    have same := before.tries.length_congr before.tries_doubled rfl fun asked => by
      have here := alike asked
      rw [direct, byLine] at here
      exact Prod.mk.inj (Option.some.inj here)
    rw [List.length_take] at same
    omega
  · intro few asked
    rw [direct, byLine, List.take_of_length_le few]

/-- A line and part of another, over a scanner that was just made: where the second is lost. -/
theorem lines_over_line_reader_not_alike :
    let rules : RuleList := { positional := [.default .character] }
    let session := (perform (makeScanner "s" "\x7b\x7d" rules {}) {}).2
    ∃ started : Way → Session,
      (∀ way, perform (startOver way "l" "s" "r" (.text "a\nb") 8192 none) session =
        (.ok (), started way)) ∧
      ¬ ∀ asked, shows ((started .byLine).answer "l" asked) =
        shows ((started .direct).answer "l" asked) := by
  intro rules session
  have kept : (session.scanners.lookup "s").map (fun entry => (entry.plan, entry.config)) =
      some (0, {}) := by decide +kernel
  have has : session.plans[0]?.isSome := by decide +kernel
  obtain ⟨⟨number, config⟩, found, same⟩ := Option.map_eq_some_iff.mp kept
  cases same
  obtain ⟨shared, planned⟩ := Option.isSome_iff_exists.mp has
  have opens : Reader.ofSource 8192 (.text "a\nb") =
      .ok (Reader.ofChunks [[0x61, 0x0A, 0x62]]) := by
    decide +kernel
  have steady : (Reader.ofChunks [[0x61, 0x0A, 0x62]]).base.Steady :=
    fun _ => unfailing_data [[0x61, 0x0A, 0x62]]
  have chosen : Scanner.lineErrors {} none = .ok .raise := by decide +kernel
  obtain ⟨started, _, starts, _, _, _, _, alike⟩ :=
    lines_over_line_reader_alike_iff found planned chosen opens steady "l" "r"
  refine ⟨started, starts, fun same => ?_⟩
  have few := alike.mp same
  exact absurd few (by decide +kernel)

/-- The numbers on two lines: a scanner that was just made brings both, but over a line reader it
brings the first one and then finds the end. -/
theorem second_line_lost_over_line_reader :
    let rules : RuleList := { positional := [.default (.ofIntegers "u8" false (some 8) false)] }
    let session := (perform (makeScanner "s" "\x7b\x7d" rules {}) {}).2
    let started (way : Way) :=
      perform (startOver way "l" "s" "r" (.text "1\n2\n") 8192 none) session
    (∀ way, (started way).1.isOk) ∧
      shows ((started .direct).2.answer "l" 0) = some (.values [.int 1], []) ∧
      shows ((started .direct).2.answer "l" 1) = some (.values [.int 2], []) ∧
      shows ((started .byLine).2.answer "l" 0) = some (.values [.int 1], []) ∧
      shows ((started .byLine).2.answer "l" 1) = some (.finished, []) := by
  refine ⟨?_, ?_, ?_, ?_, ?_⟩
  · rintro (_ | _ | _) <;> decide +kernel
  all_goals decide +kernel

end Unformat.Session
