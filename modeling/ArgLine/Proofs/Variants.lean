import ArgLine.Run
import ArgLine.Proofs.Buffer.Scoped

/-!
# ArgLine.Proofs.Variants

The plain and the aligned run, side by side.

* `perform_plain` and `perform_aligned` say what the two runs do, for every logger, every
  writer and every store they start from.  The buffer of an aligned run is never
  refused, so the run has no way out before its line is offered to the writer.
* `perform_variants_agree`: seen from outside, the runs differ in what they log about the buffer
  and in the name of the variant.  The buffer is closed however the run ends.
-/

namespace ArgLine

/-! ## lists of effects -/

namespace Effect

@[simp] theorem entries_append (xs ys : List Effect) :
    entries (xs ++ ys) = entries xs ++ entries ys := List.filterMap_append

@[simp] theorem output_append (xs ys : List Effect) :
    output (xs ++ ys) = output xs ++ output ys := List.flatMap_append

@[simp] theorem writes_append (xs ys : List Effect) :
    writes (xs ++ ys) = writes xs + writes ys := by
  simp [writes]

@[simp] theorem entries_map_logged (es : List Log.Entry) : entries (es.map logged) = es := by
  induction es with
  | nil => rfl
  | cons e es ih => exact congrArg (e :: ·) ih

@[simp] theorem output_map_logged (es : List Log.Entry) : output (es.map logged) = [] := by
  simp [output]

@[simp] theorem writes_map_logged (es : List Log.Entry) : writes (es.map logged) = 0 := by
  simp [writes]

end Effect

namespace Run

@[simp] theorem entries_write (w : Writer) (text : Bytes) : Effect.entries (write w text) = [] := by
  unfold write
  split <;> rfl

/-! ## what a run does -/

theorem log_orSilent (logger : Log.Logger) (e : Log.Entry) :
    log logger.orSilent e = (logger.delivered e).map .logged := by
  cases logger <;> rfl

def request : Request := ⟨bufferSize, bufferAlign⟩

/-- The buffer of an aligned run is never refused. -/
theorem granted_request : request.Granted := by
  unfold Request.Granted
  decide

def buffer (a : Allocator) (s : Store) : Buffer :=
  request.buffer s.memory.blocks.length (a s.memory.blocks.length request.total)

section Perform

variable (a : Allocator) (s : Store) (logger : Log.Logger) (w : Writer) (args : List Bytes)

/-- A record is reported, then the line is offered. -/
theorem report_eq (v : Variant) (truthy : Bool) :
    report logger.orSilent w args v truthy =
      (logger.delivered (recordEntry v truthy)).map .logged ++ write w (line args) := by
  rw [report, log_orSilent]

/-- A plain run logs its record and offers its line. -/
theorem perform_plain :
    perform a s logger w args .plain =
      ⟨s, (logger.delivered (recordEntry .plain false)).map .logged ++ write w (line args),
        finish w⟩ := by
  rw [← report_eq]
  rfl

/-- **The buffer of an aligned run is never refused.** -/
theorem acquire_eq :
    s.acquire a bufferSize bufferAlign =
      .ok ((Buffer.Action.acquire request).apply a s, s.buffers.length) :=
  Buffer.store_acquire_eq granted_request a s

/-- The buffer that was acquired last is found under the next handle. -/
theorem buffer?_acquire :
    ((Buffer.Action.acquire request).apply a s).buffer? s.buffers.length = some (buffer a s) := by
  rw [Buffer.apply_acquire granted_request]
  exact List.getElem?_concat_length

/-- An aligned run logs its buffer and its record, offers its line, and closes the buffer. -/
theorem perform_aligned :
    perform a s logger w args .aligned =
      ⟨((Buffer.Action.acquire request).apply a s).close s.buffers.length,
        (logger.delivered (bufferEntry (buffer a s))).map .logged ++
          ((logger.delivered (recordEntry .aligned false)).map .logged ++ write w (line args)),
        finish w⟩ := by
  rw [← report_eq, ← log_orSilent]
  unfold perform
  rw [if_neg (by decide), if_pos rfl, acquire_eq]
  simp only [buffer?_acquire, Option.toList_some, List.flatMap_singleton]
  rfl

end Perform

/-! ## the two runs compared -/

/-- The entry is about an acquired buffer. -/
def isAboutBuffer (e : Log.Entry) : Bool := e.message = ascii "aligned buffer acquired"

/-- An entry that calls the variant plain where it called it aligned. -/
def renamed (e : Log.Entry) : Log.Entry :=
  { e with
    fields := e.fields.map fun f =>
      if f = ⟨ascii "variant", .text (ascii "aligned")⟩ then
        ⟨ascii "variant", .text (ascii "plain")⟩
      else f }

/-- The entries of an aligned run as a plain run has them. -/
def asPlain (es : List Log.Entry) : List Log.Entry :=
  (es.filter fun e => !isAboutBuffer e).map renamed

/-- What an aligned run `q` has in common with a plain run `p`. -/
structure Agree (p q : Run) : Prop where
  output_eq : Effect.output q.effects = Effect.output p.effects
  writes_eq : Effect.writes q.effects = Effect.writes p.effects
  outcome_eq : q.outcome = p.outcome
  entries_eq : asPlain (Effect.entries q.effects) = Effect.entries p.effects

theorem asPlain_append (xs ys : List Log.Entry) :
    asPlain (xs ++ ys) = asPlain xs ++ asPlain ys := by
  simp [asPlain]

/-- Nothing about a buffer is left of the entries of a plain run. -/
theorem asPlain_delivered_bufferEntry (logger : Log.Logger) (b : Buffer) :
    asPlain (logger.delivered (bufferEntry b)) = [] := by
  have habout : isAboutBuffer (bufferEntry b) = true := decide_eq_true rfl
  unfold Log.Logger.delivered
  split
  · simp [asPlain, habout]
  · rfl

theorem isAboutBuffer_recordEntry (v : Variant) (truthy : Bool) :
    isAboutBuffer (recordEntry v truthy) = false :=
  decide_eq_false (by simp only [recordEntry]; decide)

/-- The entry about a record differs by the name of the variant only. -/
theorem asPlain_delivered_recordEntry (logger : Log.Logger) (truthy : Bool) :
    asPlain (logger.delivered (recordEntry .aligned truthy)) =
      logger.delivered (recordEntry .plain truthy) := by
  have hrenamed : renamed (recordEntry .aligned truthy) = recordEntry .plain truthy := by
    cases truthy <;> decide +kernel
  have hlevel : (recordEntry .aligned truthy).level = (recordEntry .plain truthy).level := rfl
  unfold Log.Logger.delivered
  rw [hlevel]
  split
  · simp [asPlain, isAboutBuffer_recordEntry, hrenamed]
  · rfl

/-- What a run logs about buffers is the one entry about its own. -/
theorem filter_isAboutBuffer (logger : Log.Logger) (b : Buffer) (v : Variant) (truthy : Bool) :
    (logger.delivered (bufferEntry b) ++ logger.delivered (recordEntry v truthy)).filter
      isAboutBuffer = logger.delivered (bufferEntry b) := by
  have habout : isAboutBuffer (bufferEntry b) = true := decide_eq_true rfl
  unfold Log.Logger.delivered
  split <;> split <;> simp [habout, isAboutBuffer_recordEntry]

/-- The two variants agree in output, writes and outcome, and in all entries but those about the
buffer. -/
theorem agree_perform (a : Allocator) (s : Store) (logger : Log.Logger) (w : Writer)
    (args : List Bytes) :
    Agree (perform a s logger w args .plain) (perform a s logger w args .aligned) := by
  rw [perform_plain, perform_aligned]
  exact
    { output_eq := by simp
      writes_eq := by simp
      outcome_eq := rfl
      entries_eq := by
        simp only [Effect.entries_append, Effect.entries_map_logged, entries_write,
          List.append_nil]
        rw [asPlain_append, asPlain_delivered_bufferEntry, asPlain_delivered_recordEntry,
          List.nil_append] }

/-- **The two runs agree on everything but the buffer.**  A plain run leaves the store alone.
An aligned one acquires a buffer, which is never refused, logs that one buffer, and has closed it
when it ends: normally, with an error or with a fault. -/
theorem perform_variants_agree (a : Allocator) (s : Store) (logger : Log.Logger) (w : Writer)
    (args : List Bytes) :
    Agree (perform a s logger w args .plain) (perform a s logger w args .aligned) ∧
    (perform a s logger w args .plain).store = s ∧
    ∃ opened h b, s.acquire a bufferSize bufferAlign = .ok (opened, h) ∧
      opened.buffer? h = some b ∧ b.isClosed = false ∧
      (Effect.entries (perform a s logger w args .aligned).effects).filter isAboutBuffer =
        logger.delivered ⟨.debug, ascii "aligned buffer acquired",
          [⟨ascii "addr", .address b.address⟩, ⟨ascii "size", .int 64⟩,
            ⟨ascii "align", .int 64⟩]⟩ ∧
      Buffer.Released opened (perform a s logger w args .aligned).store h := by
  have hentry : bufferEntry (buffer a s) = ⟨.debug, ascii "aligned buffer acquired",
      [⟨ascii "addr", .address (buffer a s).address⟩, ⟨ascii "size", .int 64⟩,
        ⟨ascii "align", .int 64⟩]⟩ := rfl
  have hplain : (perform a s logger w args .plain).store = s := by rw [perform_plain]
  refine ⟨agree_perform a s logger w args, hplain, _, _, buffer a s, acquire_eq a s,
    buffer?_acquire a s, rfl, ?_, ?_⟩
  · rw [perform_aligned, ← hentry]
    simp only [Effect.entries_append, Effect.entries_map_logged, entries_write, List.append_nil]
    exact filter_isAboutBuffer logger _ _ _
  · rw [perform_aligned]
    exact Buffer.released_close _ _

end Run

end ArgLine
