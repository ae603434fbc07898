/-
  Gherkin.Proofs.Reuse
  ────────────────────
  **A BUILDER THAT WAS USED BEFORE.**

  A builder may come into a run in any state: with rules left open, with its
  root closed and nothing on the stack, with comments of another file, after a
  run that failed half way.  None of this can be seen in the run, because the
  only thing that all calls hand on is the name of the file:

    • `Builder.Call` — what a caller can do with a builder, whole runs
      included; `performAll` carries on whatever the calls report,
    • `Builder.uri_perform`   — no call changes the name of the file,
    • `run_after_any_history` — so a run after any calls is the run of a new
      builder, in its outcome, its notes and the builder it leaves behind.
-/
import Gherkin.Proofs.RuleEffect

namespace Gherkin

/-! ## §1. Calls. -/

/-- What a caller can do with a builder. -/
inductive Builder.Call where
  /-- A token, the opening of a rule, or a closing. -/
  | handle (event : Event)
  | reset
  | run (stopAtError : Bool) (events : List Event)

namespace Builder

/-- The builder after a call, whatever the call reports. -/
def perform (b : Builder) : Call → Builder
  | .handle event => (b.handle event).2
  | .reset => b.reset
  | .run stopAtError events => (b.run stopAtError events).builder

/-- The builder after some calls, whatever they report. -/
def performAll (b : Builder) (calls : List Call) : Builder := calls.foldl perform b

@[simp] theorem performAll_cons (b : Builder) (call : Call) (rest : List Call) :
    b.performAll (call :: rest) = (b.perform call).performAll rest := rfl

@[simp] theorem performAll_append (b : Builder) (first second : List Call) :
    b.performAll (first ++ second) = (b.performAll first).performAll second :=
  List.foldl_append

-- closing the root is reported and empties the stack; a rule opened then is at the bottom
example : ((new "a").performAll [.handle (.closing .root none)]).stack = [] := rfl
example : ((new "a").performAll
    [.handle (.closing .root none), .handle (.opening .step none)]).stack = [.empty .step] := rfl

/-! ## §2. No call changes the name of the file. -/

variable {b after : Builder}

theorem uri_file {category : RuleType} {value : Value} (h : b.file category value = .ok after) :
    after.uri = b.uri := by
  unfold file at h
  split at h
  · cases h
  · cases h
    rfl

theorem uri_accept {t : Token} (h : b.accept t = .ok after) : after.uri = b.uri := by
  unfold accept at h
  split at h
  · cases h
    rfl
  · exact uri_file h

theorem uri_closeRule (b : Builder) : b.closeRule.2.uri = b.uri := by
  unfold closeRule
  split
  next => rfl
  next node outer hstack =>
    -- whether something is filed or not, the name stays
    have hfiled : ∀ (value : Value) (after : Builder),
        ({ b with stack := outer } : Builder).file node.type value = .ok after →
          after.uri = b.uri :=
      fun _ _ h => uri_file (b := { b with stack := outer }) h
    dsimp only
    split
    · split
      next after h => exact hfiled _ after h
      next => rfl
    · split
      next after h => exact hfiled _ after h
      next => rfl
    · rfl

theorem uri_handle (b : Builder) (e : Event) : (b.handle e).2.uri = b.uri := by
  cases e with
  | leaf t spare =>
      simp only [handle]
      split
      next after h => exact uri_accept h
      next => rfl
  | opening type spare => rfl
  | closing type spare => exact uri_closeRule b

end Builder

/-- The run after an event, however the event ends. -/
def Advance.last : Advance → Progress
  | .goOn next => next
  | .stop next => next
  | .fail _ next => next

namespace Progress

theorem uri_close (stop : Bool) (type : RuleType) (outer : List RuleType) (p : Progress) :
    (p.close stop type outer).last.builder.uri = p.builder.uri := by
  have hclose := p.builder.uri_closeRule
  unfold close
  split
  next h =>
    rw [h] at hclose
    exact hclose
  next h =>
    rw [h] at hclose
    cases stop <;> exact hclose
  next h =>
    rw [h] at hclose
    exact hclose

/-- No event changes the name of the file, not even one that ends the run. -/
theorem uri_advance (stop : Bool) (p : Progress) (e : Event) :
    (p.advance stop e).last.builder.uri = p.builder.uri := by
  cases e with
  | leaf t spare =>
      simp only [advance]
      split
      next after h => exact Builder.uri_accept h
      next => rfl
  | opening type spare => rfl
  | closing type spare =>
      simp only [advance]
      split
      next => rfl
      next innermost outer hrules =>
        split
        next => exact uri_close stop type outer p
        next => rfl

theorem builder_finish (p : Progress) : p.finish.builder = p.builder := by
  unfold finish
  split <;> rfl

/-- **A run keeps the name of its file**, wherever and for whatever reason it ends. -/
theorem uri_drive (stop : Bool) (events : List Event) (p : Progress) :
    (p.drive stop events).builder.uri = p.builder.uri := by
  induction events generalizing p with
  | nil =>
      unfold drive
      cases p.openRules with
      | nil => rw [builder_finish]
      | cons innermost outer => rfl
  | cons e rest ih =>
      have hstep := uri_advance stop p e
      cases hout : p.advance stop e with
      | goOn next =>
          rw [hout] at hstep
          rw [drive_goOn hout, ih next]
          exact hstep
      | stop next =>
          rw [hout] at hstep
          rw [drive_stop hout, builder_finish]
          exact hstep
      | fail fault next =>
          rw [hout] at hstep
          rw [drive_fail hout]
          exact hstep

end Progress

namespace Builder

/-- **No call changes the name of the file.** -/
theorem uri_perform (b : Builder) (call : Call) : (b.perform call).uri = b.uri := by
  cases call with
  | handle event => exact uri_handle b event
  | reset => rfl
  | run stop events => exact Progress.uri_drive stop events (.start b)

theorem uri_performAll (b : Builder) (calls : List Call) : (b.performAll calls).uri = b.uri := by
  induction calls generalizing b with
  | nil => rfl
  | cons call rest ih => rw [performAll_cons, ih, uri_perform]

/-! ## §3. A run after any calls. -/

/-- A run begins with a reset, so all that a builder brings into it is the name of the file. -/
theorem run_eq_of_uri {b c : Builder} (h : b.uri = c.uri) (stop : Bool) (events : List Event) :
    b.run stop events = c.run stop events := by
  have hstart : Progress.start b = Progress.start c := by
    unfold Progress.start
    rw [reset_eq_new, reset_eq_new, h]
  unfold run
  rw [hstart]

end Builder

/-- **A builder that was used before is as good as a new one.**  After any calls, faulty ones
included, a run has the outcome and the notes of a run with a new builder for the same file, and
leaves the same builder behind; so whatever is done later is not affected either, nor is it by
calls before a reset. -/
theorem run_after_any_history (uri : String) (history : List Builder.Call) :
    ((Builder.new uri).performAll history).uri = uri
      ∧ (∀ stop events, ((Builder.new uri).performAll history).run stop events
          = Run.ofEvents uri stop events)
      ∧ (∀ stop events later,
          (Builder.new uri).performAll (history ++ .run stop events :: later)
            = (Run.ofEvents uri stop events).builder.performAll later)
      ∧ ∀ later, (Builder.new uri).performAll (history ++ .reset :: later)
          = (Builder.new uri).performAll later := by
  have huri : ((Builder.new uri).performAll history).uri = (Builder.new uri).uri :=
    Builder.uri_performAll _ history
  have hrun : ∀ stop events, ((Builder.new uri).performAll history).run stop events
      = Run.ofEvents uri stop events := Builder.run_eq_of_uri huri
  refine ⟨huri, hrun, ?_, ?_⟩
  · intro stop events later
    rw [Builder.performAll_append, Builder.performAll_cons, ← hrun]
    rfl
  · intro later
    have hreset : ((Builder.new uri).performAll history).perform .reset = Builder.new uri := by
      show ((Builder.new uri).performAll history).reset = _
      rw [Builder.reset_eq_new, huri]
      rfl
    rw [Builder.performAll_append, Builder.performAll_cons, hreset]

end Gherkin
