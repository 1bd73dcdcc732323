import ArgLine.Proofs.Variants

/-!
# ArgLine.Proofs.Outcome

One run, from what it logs to how it ends.

* `perform_known`: a run of a known variant logs what is `due`, offers its line to the writer, and
  ends as the write does.  `perform_unknown`: any other run does nothing and fails.
* `finish_eq_done_iff`, `finish_eq_failed_iff`, `finish_eq_aborted_iff`: how a run ends is read off the
  writer, case by case.
* `perform_reports` puts them together, and adds that arguments after the first are only counted.
-/

namespace ArgLine

/-- An entry is delivered or not, by its level. -/
theorem Log.Logger.delivered_eq_filter (logger : Log.Logger) (e : Log.Entry) :
    logger.delivered e = [e].filter fun e => logger.enabled e.level := by
  rw [delivered, List.filter_cons, List.filter_nil]

namespace Run

/-- What a run of a known variant has to log: where its buffer lies, if it has one, and its
record. -/
def due (v : Variant) (addr : UInt64) : List Log.Entry :=
  (if v = .aligned then
    [⟨.debug, ascii "aligned buffer acquired",
      [⟨ascii "addr", .address addr⟩, ⟨ascii "size", .int 64⟩, ⟨ascii "align", .int 64⟩]⟩]
  else []) ++
  [⟨.debug, ascii "record constructed",
    [⟨ascii "variant", .text (if v = .aligned then ascii "aligned" else ascii "plain")⟩,
      ⟨ascii "truthy", .flag false⟩]⟩]

theorem due_plain (addr : UInt64) : due .plain addr = [recordEntry .plain false] := rfl

theorem due_aligned (a : Allocator) (s : Store) :
    due .aligned (buffer a s).address =
      [bufferEntry (buffer a s)] ++ [recordEntry .aligned false] := rfl

/-! ## what a run does -/

/-- A run of a known variant logs what is due, offers its line, and ends as the write does.  The
buffers that it leaves depend on the variant only. -/
theorem perform_known (a : Allocator) (s : Store) {v : Variant}
    (hv : v = .plain ∨ v = .aligned) :
    ∃ after, ∀ logger w args, perform a s logger w args v =
      ⟨after,
        ((due v (buffer a s).address).filter fun e => logger.enabled e.level).map .logged ++
          write w (line args),
        finish w⟩ := by
  rcases hv with rfl | rfl
  · refine ⟨s, fun logger w args => ?_⟩
    rw [perform_plain, due_plain, Log.Logger.delivered_eq_filter]
  · refine ⟨((Buffer.Action.acquire request).apply a s).close s.buffers.length,
      fun logger w args => ?_⟩
    rw [perform_aligned, due_aligned, List.filter_append, List.map_append, List.append_assoc,
      Log.Logger.delivered_eq_filter, Log.Logger.delivered_eq_filter]

/-- A run of an unknown variant fails before it logs or writes anything. -/
theorem perform_unknown (a : Allocator) (s : Store) (logger : Log.Logger) (w : Writer)
    (args : List Bytes) {v : Variant} (hplain : v ≠ .plain) (haligned : v ≠ .aligned) :
    perform a s logger w args v = ⟨s, [], .failed (.unknownVariant v)⟩ := by
  rw [perform, if_neg hplain, if_neg haligned]

/-- The error of an unknown variant gives its number. -/
theorem message_unknownVariant {v : Variant} (hplain : v ≠ .plain) (haligned : v ≠ .aligned) :
    (RunError.unknownVariant v).message =
      ascii "unknown variant Variant(" ++ Decimal.ofInt v.code.toInt ++ ascii ")" := by
  have hstart : ascii "unknown variant Variant(" = ascii "unknown variant " ++ ascii "Variant(" := by
    decide
  rw [RunError.message, Variant.name, if_neg hplain, if_neg haligned, hstart, List.append_assoc,
    List.append_assoc, List.append_assoc]

/-- Arguments with the same first one and of the same number give the same run. -/
theorem perform_congr (a : Allocator) (s : Store) (logger : Log.Logger) (w : Writer)
    {args args' : List Bytes} (v : Variant) (hhead : args'.head? = args.head?)
    (hlen : args'.length = args.length) :
    perform a s logger w args' v = perform a s logger w args v := by
  have hline : line args' = line args := by rw [line, line, nameOf, nameOf, hhead, hlen]
  simp only [perform, report, hline]

/-! ## how a run ends -/

/-- A write is one effect, or none if there is nothing to write to. -/
theorem write_eq (w : Writer) (text : Bytes) :
    write w text = (w.keep? text).toList.map (.wrote text) := by
  cases w <;> rfl

theorem writes_write (w : Writer) (text : Bytes) :
    Effect.writes (write w text) = if w = .missing then 0 else 1 := by
  cases w <;> rfl

/-- A run ends normally if its write reports no error, even if it was cut short. -/
theorem finish_eq_done_iff {w : Writer} :
    finish w = .done ↔ w = .accepting ∨ ∃ n, w = .short n := by
  cases w <;> simp [finish, Writer.finish, Outcome.mapError]

/-- A run fails if its write does, and with the text of the write. -/
theorem finish_eq_failed_iff {w : Writer} {e : RunError} :
    finish w = .failed e ↔ ∃ n text, w = .failing n text ∧ e = .write text := by
  cases w <;> simp [finish, Writer.finish, Outcome.mapError, eq_comm]

/-- A run aborts if its write does, or if there is nothing to write to. -/
theorem finish_eq_aborted_iff {w : Writer} {fault : Fault} :
    finish w = .aborted fault ↔
      (∃ n text, w = .aborting n text ∧ fault = .raised text) ∨ w = .missing ∧ fault = .absent := by
  cases w <;> simp [finish, Writer.finish, Outcome.mapError, eq_comm]

/-- A run logged what is delivered of the entries `due`, then offered its line in one call, and
reports what became of that call. -/
structure Reports (logger : Log.Logger) (w : Writer) (args : List Bytes) (due : List Log.Entry)
    (r : Run) : Prop where
  effects_eq : r.effects =
    (due.filter fun e => logger.enabled e.level).map .logged ++
      (w.keep? (line args)).toList.map (.wrote (line args))
  /-- Where there is nothing to write to, no call is made. -/
  writes_eq : Effect.writes r.effects = if w = .missing then 0 else 1
  /-- Keeping less than was offered is no failure. -/
  done_iff : r.outcome = .done ↔ w = .accepting ∨ ∃ n, w = .short n
  failed_iff : ∀ e, r.outcome = .failed e ↔
    ∃ n text, w = .failing n text ∧ e = .write text ∧ e.message = ascii "write output: " ++ text
  aborted_iff : ∀ fault, r.outcome = .aborted fault ↔
    (∃ n text, w = .aborting n text ∧ fault = .raised text) ∨ w = .missing ∧ fault = .absent

/-- A run of a known variant reports what became of its write, field by field. -/
theorem reports_of_known (a : Allocator) (s : Store) (logger : Log.Logger) (w : Writer)
    (args : List Bytes) {v : Variant} (hv : v = .plain ∨ v = .aligned) :
    Reports logger w args (due v (buffer a s).address) (perform a s logger w args v) := by
  obtain ⟨after, hperform⟩ := perform_known a s hv
  rw [hperform]
  exact
    { effects_eq := by rw [write_eq]
      writes_eq := by
        rw [Effect.writes_append, Effect.writes_map_logged, Nat.zero_add, writes_write]
      done_iff := finish_eq_done_iff
      failed_iff := by
        intro e
        rw [finish_eq_failed_iff]
        constructor
        · rintro ⟨n, text, hw, rfl⟩
          exact ⟨n, text, hw, rfl, rfl⟩
        · rintro ⟨n, text, hw, he, -⟩
          exact ⟨n, text, hw, he⟩
      aborted_iff := fun fault => finish_eq_aborted_iff }

/-- **A run makes one write and reports what became of it.**  An unknown variant is refused before
anything is logged or written; otherwise the run logs what is due, then offers its line in one
call, and how it ends says how that call did.  Arguments after the first are only counted. -/
theorem perform_reports (a : Allocator) (s : Store) (logger : Log.Logger) (w : Writer)
    (args : List Bytes) (v : Variant) :
    (v ≠ .plain → v ≠ .aligned →
      perform a s logger w args v = ⟨s, [], .failed (.unknownVariant v)⟩ ∧
      (RunError.unknownVariant v).message =
        ascii "unknown variant Variant(" ++ Decimal.ofInt v.code.toInt ++ ascii ")") ∧
    (v = .plain ∨ v = .aligned →
      Reports logger w args (due v (buffer a s).address) (perform a s logger w args v)) ∧
    ∀ args', args'.head? = args.head? → args'.length = args.length →
      perform a s logger w args' v = perform a s logger w args v := by
  refine ⟨fun hplain haligned => ?_, reports_of_known a s logger w args, fun args' => ?_⟩
  · exact ⟨perform_unknown a s logger w args hplain haligned,
      message_unknownVariant hplain haligned⟩
  · exact perform_congr a s logger w v

/-- The least code there is, and an aligned run whose writer aborts after two bytes. -/
theorem perform_reports_torn :
    (RunError.unknownVariant ⟨Int64.minValue⟩).message =
      ascii "unknown variant Variant(-9223372036854775808)" ∧
    Reports (.atLeast .debug) (.aborting 2 (ascii "torn")) [ascii "./demo", ascii "-h"]
      (due .aligned (buffer .spread .empty).address)
      (perform .spread .empty (.atLeast .debug) (.aborting 2 (ascii "torn"))
        [ascii "./demo", ascii "--help"] .aligned) := by
  have hleast := (perform_reports .spread .empty .absent .missing [] ⟨Int64.minValue⟩).1
    (by decide) (by decide)
  have htorn := perform_reports .spread .empty (.atLeast .debug) (.aborting 2 (ascii "torn"))
    [ascii "./demo", ascii "-h"] .aligned
  refine ⟨hleast.2.trans (by decide +kernel), ?_⟩
  rw [htorn.2.2 [ascii "./demo", ascii "--help"] rfl rfl]
  exact htorn.2.1 (Or.inr rfl)

end Run

end ArgLine
