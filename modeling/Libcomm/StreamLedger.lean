import Libcomm.StreamOverflow

/-!
# What becomes of every byte

The ledger of a run has a page for every call, with the bytes that the call has put
into the buffer and an entry for every stretch that has left it: a frame that was
delivered, bytes that were skipped or given up with a report, and what a reset has
cleared.  The entries are the stream itself, cut into pieces, and they make the
callback invocations.
-/

set_option autoImplicit false

namespace Libcomm

open FrameScan StreamProcessor WhileLoop

/-! ## Entries -/

inductive Entry where
  | delivered (frame : Bytes)
  | skipped (errors : List (ErrorType × String)) (bytes : Bytes)
  | givenUp (bytes : Bytes)
  | cleared (bytes : Bytes)
  /-- No bytes: a chunk came and no frame callback was registered. -/
  | refused
  deriving DecidableEq, Repr

namespace Entry

def bytes : Entry → Bytes
  | .delivered frame => frame
  | .skipped _ bytes => bytes
  | .givenUp bytes => bytes
  | .cleared bytes => bytes
  | .refused => []

def invocations (callbacks : Callbacks) : Entry → List Invocation
  | .delivered frame => [.frame (framePayload frame)]
  | .skipped errors _ => callbacks.reports errors
  | .givenUp _ => callbacks.reports overflowReport
  | .cleared _ => []
  | .refused => callbacks.reports [(.invalidHeader, "Frame callback not registered")]

end Entry

def entryBytes (entries : List Entry) : Bytes := entries.flatMap Entry.bytes

def entryInvocations (callbacks : Callbacks) (entries : List Entry) : List Invocation :=
  entries.flatMap (Entry.invocations callbacks)

/-! ## Pages -/

/-- A failure at the front of the bytes, and how many go with it: those in front of the
next version byte; without one all there are, or all that were announced. -/
inductive Skips (bytes : Bytes) : List (ErrorType × String) → Nat → Prop where
  | oversize {count : Nat} (oversize : Oversize .bits64 bytes) (resyncs : Resyncs bytes count) :
      Skips bytes oversizeReport count
  | resynced {count : Nat} (rejected : Rejected .bits64 bytes) (resyncs : Resyncs bytes count)
      (inside : count < bytes.length) : Skips bytes crcReport count
  | discarded (rejected : Rejected .bits64 bytes)
      (noVersion : NoVersionBefore bytes bytes.length) :
      Skips bytes crcReport (announcedTotal .bits64 bytes)

/-- The entries of one extraction, which leaves the beginning of a frame. -/
inductive Extraction : Bytes → List Entry → Bytes → Prop where
  | rest {bytes : Bytes} (incomplete : Incomplete .bits64 bytes) : Extraction bytes [] bytes
  | delivered {bytes after : Bytes} {entries : List Entry} (valid : ValidFrame bytes)
      (later : Extraction (bytes.drop (frameSize bytes)) entries after) :
      Extraction bytes (.delivered (bytes.take (frameSize bytes)) :: entries) after
  | skipped {bytes after : Bytes} {entries : List Entry} {errors : List (ErrorType × String)}
      {count : Nat} (skips : Skips bytes errors count)
      (later : Extraction (bytes.drop count) entries after) :
      Extraction bytes (.skipped errors (bytes.take count) :: entries) after

/-- The page of a call: from the buffered bytes before it to those behind it, with the
bytes that were put in. -/
inductive Page (callbacks : Callbacks) (before : Bytes) :
    StreamCall → Bytes → List Entry → Bytes → Prop where
  | reset : Page callbacks before .reset [] [.cleared before] []
  | nothing {data : Option Bytes} (empty : data.getD [] = []) :
      Page callbacks before (.feed data) [] [] before
  | refused {chunk : Bytes} (missing : callbacks.frameRegistered = false) (filled : chunk ≠ []) :
      Page callbacks before (.feed (some chunk)) [] [.refused] before
  | extracted {chunk after : Bytes} {entries : List Entry}
      (registered : callbacks.frameRegistered = true) (filled : chunk ≠ [])
      (fits : before.length + chunk.length ≤ kBufferCapacity)
      (extraction : Extraction (before ++ chunk) entries after) :
      Page callbacks before (.feed (some chunk)) chunk entries after
  | recovered {chunk after : Bytes} {entries : List Entry} {count : Nat}
      (registered : callbacks.frameRegistered = true) (filled : chunk ≠ [])
      (overflow : kBufferCapacity < before.length + chunk.length) (resyncs : Resyncs before count)
      (fits : (before.drop count).length + chunk.length ≤ kBufferCapacity)
      (extraction : Extraction (before.drop count ++ chunk) entries after) :
      Page callbacks before (.feed (some chunk)) chunk (.givenUp (before.take count) :: entries)
        after
  | dropped {chunk : Bytes} {count : Nat} (registered : callbacks.frameRegistered = true)
      (filled : chunk ≠ [])
      (overflow : kBufferCapacity < before.length + chunk.length) (resyncs : Resyncs before count)
      (tooLong : kBufferCapacity < (before.drop count).length + chunk.length) :
      Page callbacks before (.feed (some chunk)) [] [.givenUp (before.take count)]
        (before.drop count)

/-- A page for every call that was made, between the processors before and behind it. -/
inductive Ledger (callbacks : Callbacks) :
    StreamProcessor → List StreamCall → List (Bytes × List Entry) → StreamProcessor → Prop where
  | opened (processor : StreamProcessor) : Ledger callbacks processor [] [] processor
  | booked {before middle after : StreamProcessor} {call : StreamCall} {calls : List StreamCall}
      {taken : Bytes} {entries : List Entry} {pages : List (Bytes × List Entry)}
      (called : before.call .bits64 callbacks call = some middle)
      (page : Page callbacks before.live call taken entries middle.live)
      (later : Ledger callbacks middle calls pages after) :
      Ledger callbacks before (call :: calls) ((taken, entries) :: pages) after

def ledgerBytes (pages : List (Bytes × List Entry)) : Bytes :=
  pages.flatMap fun page => entryBytes page.2

def ledgerInvocations (callbacks : Callbacks) (pages : List (Bytes × List Entry)) :
    List Invocation :=
  pages.flatMap fun page => entryInvocations callbacks page.2

/-! ## What goes with a failure -/

namespace Skips
variable {bytes : Bytes} {errors others : List (ErrorType × String)} {count other : Nat}

theorem bounds (skips : Skips bytes errors count) : 1 ≤ count ∧ count ≤ bytes.length := by
  cases skips with
  | oversize oversize resyncs =>
      have filled : bytes ≠ [] :=
        List.ne_nil_of_length_pos (Nat.lt_of_lt_of_le (by decide) oversize.1)
      exact ⟨resyncs.positive filled, resyncs.inside⟩
  | resynced _ resyncs inside =>
      have filled : bytes ≠ [] := List.ne_nil_of_length_pos (Nat.zero_lt_of_lt inside)
      exact ⟨resyncs.positive filled, resyncs.inside⟩
  | discarded rejected _ =>
      refine ⟨?_, rejected.inside⟩
      rw [announcedTotal_bits64]
      exact Nat.le_trans (by decide) (frameSize_ge bytes)

/-- No frame begins among the bytes that go. -/
theorem skippable (skips : Skips bytes errors count) : Skippable frameFraming bytes count := by
  have inside := skips.bounds.2
  cases skips with
  | oversize oversize resyncs =>
      exact skippable_of_no_version _ _ inside (dead_of_oversized _ _ oversize) resyncs.noVersion
  | resynced rejected resyncs _ =>
      exact skippable_of_no_version _ _ inside (dead_of_rejected _ _ rejected) resyncs.noVersion
  | discarded rejected noVersion =>
      exact skippable_of_no_version _ _ inside (dead_of_rejected _ _ rejected)
        fun position first before => noVersion position first (Nat.lt_of_lt_of_le before inside)

theorem not_valid (skips : Skips bytes errors count) : ¬ ValidFrame bytes := by
  intro valid
  have dead := skips.skippable 0 skips.bounds.1 []
  rw [List.drop_zero, List.append_nil] at dead
  exact absurd (dead.symm.trans (if_pos valid)) nofun

theorem not_incomplete (skips : Skips bytes errors count) : ¬ Incomplete .bits64 bytes := by
  have order : kHeaderSize ≤ kMinimumFrameSize := by decide
  have whole (rejected : Rejected .bits64 bytes) : ¬ Incomplete .bits64 bytes := by
    obtain ⟨minimum, inside, _, _⟩ := rejected
    rintro (short | ⟨_, short | short⟩) <;> omega
  cases skips with
  | oversize oversize _ =>
      obtain ⟨header, exceeds⟩ := oversize
      rintro (short | ⟨small, _⟩) <;> omega
  | resynced rejected _ _ => exact whole rejected
  | discarded rejected _ => exact whole rejected

theorem unique (first : Skips bytes errors count) (second : Skips bytes others other) :
    errors = others ∧ count = other := by
  have apart (oversize : Oversize .bits64 bytes) : ¬ Rejected .bits64 bytes :=
    fun rejected => absurd rejected.small (Nat.not_le_of_lt oversize.2)
  have found {position : Nat} (resyncs : Resyncs bytes position)
      (inside : position < bytes.length) : ¬ NoVersionBefore bytes bytes.length := by
    intro noVersion
    have filled : bytes ≠ [] := List.ne_nil_of_length_pos (Nat.zero_lt_of_lt inside)
    exact noVersion position (resyncs.positive filled) inside (resyncs.version inside)
  cases first with
  | oversize oversize resyncs =>
      cases second with
      | oversize _ also => exact ⟨rfl, resyncs.unique also⟩
      | resynced rejected _ _ => exact absurd rejected (apart oversize)
      | discarded rejected _ => exact absurd rejected (apart oversize)
  | resynced rejected resyncs inside =>
      cases second with
      | oversize oversize _ => exact absurd rejected (apart oversize)
      | resynced _ also _ => exact ⟨rfl, resyncs.unique also⟩
      | discarded _ noVersion => exact absurd noVersion (found resyncs inside)
  | discarded rejected noVersion =>
      cases second with
      | oversize oversize _ => exact absurd rejected (apart oversize)
      | resynced _ resyncs inside => exact absurd noVersion (found resyncs inside)
      | discarded _ _ => exact ⟨rfl, rfl⟩

end Skips

/-! ## What an entry costs -/

theorem reports_length_le (callbacks : Callbacks) (errors : List (ErrorType × String)) :
    (callbacks.reports errors).length ≤ errors.length := by
  unfold Callbacks.reports
  split
  · exact Nat.le_of_eq (List.length_map _)
  · exact Nat.zero_le _

theorem Skips.errors_length {bytes : Bytes} {errors : List (ErrorType × String)} {count : Nat}
    (skips : Skips bytes errors count) : errors.length = 2 := by
  cases skips <;> rfl

namespace Extraction
variable {before after : Bytes} {entries : List Entry}

theorem split (extraction : Extraction before entries after) :
    before = entryBytes entries ++ after := by
  induction extraction with
  | rest _ => rfl
  | @delivered bytes _ _ _ _ ih =>
      rw [entryBytes, List.flatMap_cons, ← entryBytes, List.append_assoc, ← ih]
      exact (List.take_append_drop (frameSize bytes) bytes).symm
  | @skipped bytes _ _ _ count _ _ ih =>
      rw [entryBytes, List.flatMap_cons, ← entryBytes, List.append_assoc, ← ih]
      exact (List.take_append_drop count bytes).symm

/-- The buffered bytes decide what an extraction makes of them. -/
theorem unique {others : List Entry} {other : Bytes} (first : Extraction before entries after)
    (second : Extraction before others other) : entries = others ∧ after = other := by
  induction first generalizing others with
  | rest incomplete =>
      cases second with
      | rest _ => exact ⟨rfl, rfl⟩
      | delivered valid _ => exact absurd incomplete (not_incomplete_of_valid .bits64 valid)
      | skipped skips _ => exact absurd incomplete skips.not_incomplete
  | delivered valid _ ih =>
      cases second with
      | rest incomplete => exact absurd incomplete (not_incomplete_of_valid .bits64 valid)
      | delivered _ later =>
          obtain ⟨rfl, rfl⟩ := ih later
          exact ⟨rfl, rfl⟩
      | skipped skips _ => exact absurd valid skips.not_valid
  | skipped skips _ ih =>
      cases second with
      | rest incomplete => exact absurd incomplete skips.not_incomplete
      | delivered valid _ => exact absurd valid skips.not_valid
      | skipped also later =>
          obtain ⟨rfl, rfl⟩ := skips.unique also
          obtain ⟨rfl, rfl⟩ := ih later
          exact ⟨rfl, rfl⟩

theorem invocations_le (callbacks : Callbacks) (extraction : Extraction before entries after) :
    (entryInvocations callbacks entries).length ≤ 2 * (entryBytes entries).length := by
  induction extraction with
  | rest _ => exact Nat.zero_le _
  | @delivered bytes _ _ valid _ ih =>
      have size : 12 ≤ frameSize bytes := frameSize_ge bytes
      have length : (bytes.take (frameSize bytes)).length = frameSize bytes :=
        List.length_take_of_le valid.complete
      simp only [entryInvocations, entryBytes, List.flatMap_cons, List.length_append,
        Entry.invocations, Entry.bytes, List.length_singleton, length] at ih ⊢
      omega
  | @skipped bytes _ _ errors count skips _ ih =>
      have reported := reports_length_le callbacks errors
      have two := skips.errors_length
      obtain ⟨positive, inside⟩ := skips.bounds
      have length : (bytes.take count).length = count := List.length_take_of_le inside
      simp only [entryInvocations, entryBytes, List.flatMap_cons, List.length_append,
        Entry.invocations, Entry.bytes, length] at ih ⊢
      omega

end Extraction

namespace Page
variable {callbacks : Callbacks} {before taken after : Bytes} {call : StreamCall}
  {entries : List Entry}

/-- What was in the buffer and what was put in is in the entries or still there. -/
theorem split (page : Page callbacks before call taken entries after) :
    before ++ taken = entryBytes entries ++ after := by
  cases page with
  | reset => simp [entryBytes, Entry.bytes]
  | nothing _ => simp [entryBytes]
  | refused _ _ => simp [entryBytes, Entry.bytes]
  | extracted _ _ _ extraction => exact extraction.split
  | @recovered _ _ entries count _ _ _ _ _ extraction =>
      rw [entryBytes, List.flatMap_cons, ← entryBytes, List.append_assoc, ← extraction.split,
        ← List.append_assoc]
      exact congrArg (· ++ taken) (List.take_append_drop count before).symm
  | dropped _ _ _ _ _ => simp [entryBytes, Entry.bytes]

/-- The buffered bytes decide what a call makes of them. -/
theorem unique {takenToo other : Bytes} {others : List Entry}
    (first : Page callbacks before call taken entries after)
    (second : Page callbacks before call takenToo others other) :
    taken = takenToo ∧ entries = others ∧ after = other := by
  cases first with
  | reset =>
      cases second
      exact ⟨rfl, rfl, rfl⟩
  | nothing empty =>
      cases second with
      | nothing _ => exact ⟨rfl, rfl, rfl⟩
      | refused _ filled => exact absurd empty filled
      | extracted _ filled _ _ => exact absurd empty filled
      | recovered _ filled _ _ _ _ => exact absurd empty filled
      | dropped _ filled _ _ _ => exact absurd empty filled
  | refused missing filled =>
      have unregistered : callbacks.frameRegistered ≠ true := by simp [missing]
      cases second with
      | nothing empty => exact absurd empty filled
      | refused _ _ => exact ⟨rfl, rfl, rfl⟩
      | extracted registered _ _ _ => exact absurd registered unregistered
      | recovered registered _ _ _ _ _ => exact absurd registered unregistered
      | dropped registered _ _ _ _ => exact absurd registered unregistered
  | extracted registered filled fits extraction =>
      cases second with
      | nothing empty => exact absurd empty filled
      | refused missing _ => exact absurd (registered.symm.trans missing) (by decide)
      | extracted _ _ _ also => exact ⟨rfl, extraction.unique also⟩
      | recovered _ _ overflow _ _ _ => omega
      | dropped _ _ overflow _ _ => omega
  | recovered registered filled overflow resyncs fits extraction =>
      cases second with
      | nothing empty => exact absurd empty filled
      | refused missing _ => exact absurd (registered.symm.trans missing) (by decide)
      | extracted _ _ _ _ => omega
      | recovered _ _ _ found _ also =>
          obtain rfl := resyncs.unique found
          obtain ⟨rfl, rfl⟩ := extraction.unique also
          exact ⟨rfl, rfl, rfl⟩
      | dropped _ _ _ found tooLong =>
          obtain rfl := resyncs.unique found
          omega
  | dropped registered filled overflow resyncs tooLong =>
      cases second with
      | nothing empty => exact absurd empty filled
      | refused missing _ => exact absurd (registered.symm.trans missing) (by decide)
      | extracted _ _ _ _ => omega
      | recovered _ _ _ found _ _ =>
          obtain rfl := resyncs.unique found
          omega
      | dropped _ _ _ found _ =>
          obtain rfl := resyncs.unique found
          exact ⟨rfl, rfl, rfl⟩

theorem invocations_le (page : Page callbacks before call taken entries after) :
    (entryInvocations callbacks entries).length ≤ 2 * (entryBytes entries).length + 2 := by
  have overflow : (callbacks.reports overflowReport).length ≤ 2 := reports_length_le callbacks _
  cases page with
  | reset => exact Nat.zero_le _
  | nothing _ => exact Nat.zero_le _
  | refused _ _ =>
      have reported := reports_length_le callbacks
        [(.invalidHeader, "Frame callback not registered")]
      simp only [entryInvocations, List.flatMap_cons, List.flatMap_nil, List.append_nil,
        Entry.invocations, List.length_singleton] at reported ⊢
      omega
  | extracted _ _ _ extraction => exact Nat.le_succ_of_le (Nat.le_succ_of_le
      (extraction.invocations_le callbacks))
  | recovered _ _ _ _ _ extraction =>
      have extracted := extraction.invocations_le callbacks
      simp only [entryInvocations, entryBytes, List.flatMap_cons, List.length_append,
        Entry.invocations, Entry.bytes] at extracted ⊢
      omega
  | dropped _ _ _ _ _ =>
      simp only [entryInvocations, List.flatMap_cons, List.flatMap_nil, List.append_nil,
        Entry.invocations]
      omega

end Page

/-- A run has one ledger. -/
theorem Ledger.unique {callbacks : Callbacks} {before after other : StreamProcessor}
    {calls : List StreamCall} {pages others : List (Bytes × List Entry)}
    (first : Ledger callbacks before calls pages after)
    (second : Ledger callbacks before calls others other) : pages = others ∧ after = other := by
  induction first generalizing others with
  | opened _ =>
      cases second
      exact ⟨rfl, rfl⟩
  | booked called page _ ih =>
      cases second with
      | booked calledToo pageToo later =>
          obtain rfl := Option.some.inj (called.symm.trans calledToo)
          obtain ⟨rfl, rfl, _⟩ := page.unique pageToo
          obtain ⟨rfl, rfl⟩ := ih later
          exact ⟨rfl, rfl⟩

namespace StreamProcessor
variable {callbacks : Callbacks} {before after : StreamProcessor}

/-! ## Bookkeeping -/

theorem run_extraction (quiet : callbacks.Quiet) (inRange : before.InRange) {extractedAny : Bool}
    {fuel : Nat} {final : StreamProcessor × Bool}
    (result : WhileLoop.run (extractPass .bits64 callbacks) fuel (before, extractedAny) =
      some final) :
    ∃ entries, Extraction before.live entries final.1.live ∧
      final.1.invocations = before.invocations ++ entryInvocations callbacks entries := by
  induction fuel generalizing before extractedAny with
  | zero => cases result
  | succ fuel ih =>
      have outcome := extractPass_outcome quiet .bits64 before inRange extractedAny
      cases pass : extractPass .bits64 callbacks (before, extractedAny) with
      | exit last =>
          rw [run_exit pass] at result
          rw [pass] at outcome
          cases result
          cases outcome with
          | waits incomplete => exact ⟨[], .rest incomplete, (List.append_nil _).symm⟩
          | @cleared after oversize noVersion _ moved =>
              have skips : Skips before.live oversizeReport before.live.length :=
                .oversize oversize (.whole noVersion)
              refine ⟨[.skipped oversizeReport _], .skipped skips ?_, ?_⟩
              · rw [List.drop_length, moved.live_eq]
                exact .rest (Or.inl (by decide))
              · rw [moved.invocations_eq]
                simp [entryInvocations, Entry.invocations]
      | again next =>
          rw [run_again pass] at result
          rw [pass] at outcome
          cases outcome with
          | @resynced after errors count reason positive inside version noVersion _ moved =>
              have resyncs : Resyncs before.live count :=
                ⟨fun _ => positive, Nat.le_of_lt inside, noVersion, fun _ => version⟩
              have skips : Skips before.live errors count := by
                rcases reason with ⟨rfl, oversize⟩ | ⟨rfl, rejected⟩
                · exact .oversize oversize resyncs
                · exact .resynced rejected resyncs inside
              obtain ⟨entries, extraction, invocations⟩ := ih (moved.inRange inRange) result
              rw [moved.live_eq] at extraction
              refine ⟨_, .skipped skips extraction, ?_⟩
              rw [invocations, moved.invocations_eq, List.append_assoc]
              rfl
          | @delivered after valid moved =>
              obtain ⟨entries, extraction, invocations⟩ := ih (moved.inRange inRange) result
              rw [moved.live_eq] at extraction
              refine ⟨_, .delivered valid extraction, ?_⟩
              have payload : framePayload (before.live.take (frameSize before.live)) =
                  framePayload before.live := framePayload_take _ (Nat.le_refl _)
              rw [invocations, moved.invocations_eq, List.append_assoc, ← payload]
              rfl
          | @discarded after rejected noVersion _ moved =>
              have skips := Skips.discarded rejected noVersion
              obtain ⟨entries, extraction, invocations⟩ := ih (moved.inRange inRange) result
              rw [moved.live_eq] at extraction
              refine ⟨_, .skipped skips extraction, ?_⟩
              rw [invocations, moved.invocations_eq, List.append_assoc]
              rfl

theorem extractFrames_extraction (quiet : callbacks.Quiet) (inRange : before.InRange) :
    ∃ after entries, (before.extractFrames .bits64 callbacks).map Prod.fst = some after ∧
      Extraction before.live entries after.live ∧ after.InRange ∧
      after.invocations = before.invocations ++ entryInvocations callbacks entries ∧
      after.appended = before.appended := by
  obtain ⟨after, result, extracted, _⟩ := extractFrames_bits64 quiet inRange
  obtain ⟨final, ran, same⟩ := Option.map_eq_some_iff.mp result
  obtain ⟨entries, extraction, invocations⟩ := run_extraction quiet inRange ran
  rw [same] at extraction invocations
  exact ⟨after, entries, result, extraction, extracted.inRange, invocations,
    extracted.appended_eq⟩

structure Booked (callbacks : Callbacks) (before : StreamProcessor) (call : StreamCall)
    (taken : Bytes) (entries : List Entry) (after : StreamProcessor) : Prop where
  called : before.call .bits64 callbacks call = some after
  page : Page callbacks before.live call taken entries after.live
  inRange : after.InRange
  appended_eq : after.appended = before.appended ++ taken
  invocations_eq : after.invocations = before.invocations ++ entryInvocations callbacks entries

theorem reset_booked (processor : StreamProcessor) :
    Booked callbacks processor .reset [] [.cleared processor.live] processor.reset where
  called := rfl
  page := .reset
  inRange := Nat.zero_le _
  appended_eq := (List.append_nil _).symm
  invocations_eq := (List.append_nil _).symm

theorem feed_nothing_booked (inRange : before.InRange) {data : Option Bytes}
    (empty : data.getD [] = []) :
    Booked callbacks before (.feed data) [] [] before where
  called := by
    cases data with
    | none => rfl
    | some chunk =>
        cases empty
        rfl
  page := .nothing empty
  inRange := inRange
  appended_eq := (List.append_nil _).symm
  invocations_eq := (List.append_nil _).symm

theorem feed_unregistered_booked (quiet : callbacks.Quiet) (inRange : before.InRange)
    (missing : callbacks.frameRegistered = false) {chunk : Bytes} (filled : chunk ≠ []) :
    Booked callbacks before (.feed (some chunk)) [] [.refused]
      (before.reported callbacks [(.invalidHeader, "Frame callback not registered")]) where
  called := by
    have positive : chunk.length ≠ 0 := fun zero => filled (List.length_eq_zero_iff.mp zero)
    simp only [StreamProcessor.call, feed, positive, missing, Bool.false_eq_true,
      not_false_eq_true, if_true, if_false, reportError_quiet quiet]
    rfl
  page := .refused missing filled
  inRange := inRange
  appended_eq := (List.append_nil _).symm
  invocations_eq := by simp [entryInvocations, Entry.invocations, reported]

theorem feed_fits_booked (quiet : callbacks.Quiet) (registered : callbacks.frameRegistered = true)
    (inRange : before.InRange) {chunk : Bytes} (filled : chunk ≠ [])
    (fits : before.size + chunk.length ≤ kBufferCapacity) :
    ∃ entries after, Booked callbacks before (.feed (some chunk)) chunk entries after := by
  obtain ⟨after, entries, result, extraction, afterInRange, invocations, appended⟩ :=
    @extractFrames_extraction callbacks (before.withChunk chunk) quiet fits
  rw [withChunk_live fits] at extraction
  have inside : before.live.length + chunk.length ≤ kBufferCapacity := by
    rwa [live_length inRange]
  refine ⟨entries, after, ?_, .extracted registered filled inside extraction, afterInRange,
    appended, invocations⟩
  rw [StreamProcessor.call, feed_fits .bits64 registered filled fits, result]

theorem feed_overflows_booked (quiet : callbacks.Quiet)
    (registered : callbacks.frameRegistered = true) (inRange : before.InRange) {chunk : Bytes}
    (filled : chunk ≠ []) (overflow : kBufferCapacity < before.size + chunk.length) :
    ∃ taken entries after, Booked callbacks before (.feed (some chunk)) taken entries after := by
  have tooLong : kBufferCapacity < before.live.length + chunk.length := by
    rwa [live_length inRange]
  obtain ⟨count, resyncs, moved⟩ := recoverSpace_resyncs quiet inRange
  have size := moved.size_eq
  have recovered := feed_overflows .bits64 quiet registered inRange overflow
  set freed := before.recoverSpace callbacks
  by_cases enough : freed.size + chunk.length ≤ kBufferCapacity
  · obtain ⟨after, entries, result, extraction, afterInRange, invocations, appended⟩ :=
      @extractFrames_extraction callbacks (freed.withChunk chunk) quiet enough
    rw [withChunk_live enough, moved.live_eq] at extraction
    rw [if_pos enough, result] at recovered
    refine ⟨chunk, _, after, recovered,
      .recovered registered filled tooLong resyncs (size ▸ enough) extraction, afterInRange, ?_, ?_⟩
    · rw [appended, withChunk, moved.appended_eq]
    · rw [invocations, withChunk, moved.invocations_eq, List.append_assoc]
      rfl
  · rw [if_neg enough] at recovered
    have page : Page callbacks before.live (.feed (some chunk)) []
        [.givenUp (before.live.take count)] (before.live.drop count) :=
      .dropped registered filled tooLong resyncs (size ▸ Nat.lt_of_not_le enough)
    rw [← moved.live_eq] at page
    refine ⟨[], _, freed, recovered, page, moved.inRange inRange, ?_, ?_⟩
    · rw [moved.appended_eq, List.append_nil]
    · rw [moved.invocations_eq]
      simp [entryInvocations, Entry.invocations]

theorem call_booked (quiet : callbacks.Quiet) (inRange : before.InRange) (call : StreamCall) :
    ∃ taken entries after, Booked callbacks before call taken entries after := by
  match call with
  | .reset => exact ⟨_, _, _, reset_booked before⟩
  | .feed none => exact ⟨_, _, _, feed_nothing_booked inRange rfl⟩
  | .feed (some chunk) =>
      by_cases empty : chunk = []
      · exact ⟨_, _, _, feed_nothing_booked inRange empty⟩
      cases registered : callbacks.frameRegistered with
      | false => exact ⟨_, _, _, feed_unregistered_booked quiet inRange registered empty⟩
      | true =>
          rcases Nat.lt_or_ge kBufferCapacity (before.size + chunk.length) with overflow | fits
          · exact feed_overflows_booked quiet registered inRange empty overflow
          · exact ⟨_, feed_fits_booked quiet registered inRange empty fits⟩

end StreamProcessor

/-! ## Balance -/

/-- The totals of a ledger between two processors. -/
structure Balanced (callbacks : Callbacks) (before : StreamProcessor)
    (pages : List (Bytes × List Entry)) (after : StreamProcessor) : Prop where
  inRange : after.InRange
  appended_eq : after.appended = before.appended ++ (pages.map Prod.fst).flatten
  stream : before.live ++ (pages.map Prod.fst).flatten = ledgerBytes pages ++ after.live
  invocations_eq : after.invocations = before.invocations ++ ledgerInvocations callbacks pages
  invocations_le : (ledgerInvocations callbacks pages).length ≤
    2 * (ledgerBytes pages).length + 2 * pages.length

namespace Balanced
variable {callbacks : Callbacks} {before middle after : StreamProcessor}
  {pages : List (Bytes × List Entry)}

theorem opened (callbacks : Callbacks) (inRange : before.InRange) :
    Balanced callbacks before [] before where
  inRange := inRange
  appended_eq := (List.append_nil _).symm
  stream := List.append_nil _
  invocations_eq := (List.append_nil _).symm
  invocations_le := Nat.zero_le _

theorem booked {call : StreamCall} {taken : Bytes} {entries : List Entry}
    (booked : Booked callbacks before call taken entries middle)
    (later : Balanced callbacks middle pages after) :
    Balanced callbacks before ((taken, entries) :: pages) after where
  inRange := later.inRange
  appended_eq := by
    rw [later.appended_eq, booked.appended_eq, List.append_assoc]
    rfl
  stream := by
    have whole : ledgerBytes ((taken, entries) :: pages) =
        entryBytes entries ++ ledgerBytes pages := rfl
    rw [List.map_cons, List.flatten_cons, ← List.append_assoc, booked.page.split, whole,
      List.append_assoc, later.stream, List.append_assoc]
  invocations_eq := by
    rw [later.invocations_eq, booked.invocations_eq, List.append_assoc]
    rfl
  invocations_le := by
    have front := booked.page.invocations_le
    have back := later.invocations_le
    simp only [ledgerInvocations, ledgerBytes, List.flatMap_cons, List.length_append,
      List.length_cons] at back ⊢
    omega

end Balanced

namespace StreamProcessor

theorem run_ledger {callbacks : Callbacks} (quiet : callbacks.Quiet) (calls : List StreamCall)
    {before : StreamProcessor} (inRange : before.InRange) :
    ∃ after pages, before.run .bits64 callbacks calls = some after ∧
      Ledger callbacks before calls pages after ∧ Balanced callbacks before pages after ∧
      pages.length = calls.length := by
  induction calls generalizing before with
  | nil => exact ⟨before, [], rfl, .opened before, .opened callbacks inRange, rfl⟩
  | cons call rest ih =>
      obtain ⟨taken, entries, middle, booked⟩ := call_booked quiet inRange call
      obtain ⟨after, pages, ran, ledger, balanced, length⟩ := ih booked.inRange
      refine ⟨after, (taken, entries) :: pages, ?_, .booked booked.called booked.page ledger,
        balanced.booked booked, congrArg Nat.succ length⟩
      rw [run_cons, booked.called]
      exact ran

/-- **Every byte is accounted for** in every run, by its only ledger.  The bytes that were
put into the buffer are those of the entries, in order and without a gap, and behind them
those that are still buffered; the callback invocations are those of the entries; and no
callback is invoked more than twice for a byte that came in or a call that was made. -/
theorem run_is_balanced {callbacks : Callbacks} (quiet : callbacks.Quiet) (buffer : FrameBuffer)
    (calls : List StreamCall) :
    ∃ after pages, (empty buffer).run .bits64 callbacks calls = some after ∧
      Ledger callbacks (empty buffer) calls pages after ∧
      (∀ others other, Ledger callbacks (empty buffer) calls others other → others = pages) ∧
      after.appended = (pages.map Prod.fst).flatten ∧
      after.appended = ledgerBytes pages ++ after.live ∧
      after.live.length = after.getBufferUsage ∧
      after.invocations = ledgerInvocations callbacks pages ∧
      after.invocations.length + 2 * after.getBufferUsage ≤
        2 * after.appended.length + 2 * calls.length := by
  obtain ⟨after, pages, ran, ledger, balanced, length⟩ :=
    run_ledger quiet calls (show (empty buffer).InRange from Nat.zero_le _)
  have appended : after.appended = (pages.map Prod.fst).flatten := balanced.appended_eq
  have stream : after.appended = ledgerBytes pages ++ after.live :=
    appended.trans balanced.stream
  have buffered : after.live.length = after.getBufferUsage := live_length balanced.inRange
  have invocations : after.invocations = ledgerInvocations callbacks pages :=
    balanced.invocations_eq
  refine ⟨after, pages, ran, ledger, fun _ _ also => (also.unique ledger).1, appended, stream,
    buffered, invocations, ?_⟩
  have bound := balanced.invocations_le
  rw [invocations, stream, List.length_append, buffered]
  omega

/-- Half a header, a chunk that never fits, a frame with two bytes behind it, a reset. -/
def balancedCalls : List StreamCall :=
  [.feed (some [1, 0, 7]), .feed (some (List.replicate 4109 0)),
    .feed (some (encodeFrame 7 [] ++ [1, 2])), .reset]

theorem run_is_balanced_overflow :
    ∃ after, (empty .zeros).run .bits64 listeningCallbacks balancedCalls = some after ∧
      Ledger listeningCallbacks (empty .zeros) balancedCalls
        [([1, 0, 7], []), ([], [.givenUp [1, 0, 7]]),
          (encodeFrame 7 [] ++ [1, 2], [.delivered (encodeFrame 7 [])]), ([], [.cleared [1, 2]])]
        after ∧
      after.invocations = listeningCallbacks.reports overflowReport ++ [.frame []] ∧
      after.getBufferUsage = 0 := by
  obtain ⟨after, pages, ran, ledger, _, _, _, buffered, invocations, _⟩ :=
    run_is_balanced listeningCallbacks_quiet .zeros balancedCalls
  have whole := id ledger
  cases ledger with
  | @booked _ first _ _ _ _ _ _ _ firstPage ledger =>
  cases ledger with
  | @booked _ second _ _ _ _ _ _ _ secondPage ledger =>
  cases ledger with
  | @booked _ third _ _ _ _ _ _ _ thirdPage ledger =>
  cases ledger with
  | @booked _ fourth _ _ _ _ _ _ _ lastPage ledger =>
  cases ledger with
  | opened _ =>
  obtain ⟨rfl, rfl, firstLive⟩ := firstPage.unique (.extracted rfl (by decide) (by decide)
    (.rest (Or.inl (by decide))))
  have none : Resyncs [1, 0, 7] 3 := by
    refine .whole fun position positive inside => ?_
    obtain rfl | rfl : position = 1 ∨ position = 2 := by
      simp only [List.length_cons, List.length_nil] at inside
      omega
    · decide
    · decide
  have filled : List.replicate 4109 (0 : UInt8) ≠ [] :=
    List.ne_nil_of_length_pos (by rw [List.length_replicate]; decide)
  have overflow : kBufferCapacity < ([1, 0, 7] : Bytes).length +
      (List.replicate 4109 (0 : UInt8)).length := by
    rw [List.length_replicate]
    decide
  have tooLong : kBufferCapacity < ([1, 0, 7].drop 3 : Bytes).length +
      (List.replicate 4109 (0 : UInt8)).length := by
    rw [List.length_replicate]
    decide
  rw [show first.live = [1, 0, 7] from firstLive] at secondPage
  obtain ⟨rfl, rfl, secondLive⟩ := secondPage.unique (.dropped rfl filled overflow none tooLong)
  rw [show second.live = [] from secondLive] at thirdPage
  have size : frameSize ([] ++ (encodeFrame 7 [] ++ [1, 2])) = 12 := by decide +kernel
  obtain ⟨rfl, rfl, thirdLive⟩ := thirdPage.unique (.extracted rfl (by decide) (by decide)
    (.delivered (by decide +kernel) (.rest (Or.inl (by rw [size]; decide +kernel)))))
  rw [size] at whole invocations thirdLive
  rw [show third.live = [1, 2] from thirdLive] at lastPage
  obtain ⟨rfl, rfl, lastLive⟩ := lastPage.unique .reset
  refine ⟨after, ran, whole, invocations, ?_⟩
  rw [← buffered, lastLive]
  rfl

end StreamProcessor

end Libcomm
