import ShellDoc.Text.Basic

/-!
# Journals

A run leaves messages in a journal and writes chunks of text to its output. `Journaled ε α` is a run
that ends with a value of `α` or an error of `ε`; what it has left and written by then stays, either
way.

* `Journaled.say`: leave a message.
* `Journaled.debug`: leave one that only a verbose run shows.
* `Journaled.emit`: write to the output.
* `Journaled.bind`: one run after the other; an error ends both.
* `Journaled.captured`: the same run, without what it wrote.
-/

namespace ShellDoc

/-- How grave a message is. -/
inductive Severity where
  | debug
  | info
  | error
  | fail
deriving DecidableEq, Repr

/-- The word for a severity. -/
def Severity.word : Severity → Text
  | .debug => "debug"
  | .info => "info"
  | .error => "error"
  | .fail => "fail"

/-- A message. -/
structure Message where
  severity : Severity
  text : Text
deriving DecidableEq, Repr

/-- A run: the messages it left and the chunks it wrote, in order, and how it ended. -/
structure Journaled (ε α : Type) where
  log : List Message
  written : List Text
  outcome : Except ε α

namespace Journaled

variable {ε ε' α β : Type}

/-- End with the value `a`. -/
protected def pure (a : α) : Journaled ε α := ⟨[], [], .ok a⟩

/-- End with the error `e`. -/
def raise (e : ε) : Journaled ε α := ⟨[], [], .error e⟩

/-- Go on from `x` with its value, if there is one. -/
protected def bind (x : Journaled ε α) (f : α → Journaled ε β) : Journaled ε β :=
  match x.outcome with
  | .error e => ⟨x.log, x.written, .error e⟩
  | .ok a => ⟨x.log ++ (f a).log, x.written ++ (f a).written, (f a).outcome⟩

instance : Monad (Journaled ε) where
  pure := Journaled.pure
  bind := Journaled.bind

/-- Leave a message. -/
def say (severity : Severity) (text : Text) : Journaled ε Unit :=
  ⟨[⟨severity, text⟩], [], .ok ()⟩

/-- Leave a message that only a `verbose` run shows. -/
def debug (verbose : Bool) (text : Text) : Journaled ε Unit :=
  if verbose then say .debug text else .pure ()

/-- Write `chunks` to the output. -/
def emit (chunks : List Text) : Journaled ε Unit := ⟨[], chunks, .ok ()⟩

/-- The value or the error `x`, without messages. -/
def ofExcept (x : Except ε α) : Journaled ε α := ⟨[], [], x⟩

/-- The run `x` with its error put differently. -/
def mapError (f : ε → ε') (x : Journaled ε α) : Journaled ε' α :=
  ⟨x.log, x.written, x.outcome.mapError f⟩

/-- The run `x` with its output kept from the outside. -/
def captured (x : Journaled ε α) : Journaled ε α := { x with written := [] }

/-! ## Laws -/

@[simp] theorem outcome_pure (a : α) : (pure a : Journaled ε α).outcome = .ok a := rfl

@[simp] theorem log_pure (a : α) : (pure a : Journaled ε α).log = [] := rfl

@[simp] theorem outcome_bind (x : Journaled ε α) (f : α → Journaled ε β) :
    (x >>= f).outcome = x.outcome.bind fun a => (f a).outcome := by
  obtain ⟨log, written, outcome⟩ := x
  cases outcome <;> rfl

theorem log_bind_ok {x : Journaled ε α} {a : α} (h : x.outcome = .ok a)
    (f : α → Journaled ε β) : (x >>= f).log = x.log ++ (f a).log := by
  obtain ⟨log, written, outcome⟩ := x
  subst h
  rfl

theorem log_bind_error {x : Journaled ε α} {e : ε} (h : x.outcome = .error e)
    (f : α → Journaled ε β) : (x >>= f).log = x.log := by
  obtain ⟨log, written, outcome⟩ := x
  subst h
  rfl

theorem written_bind_ok {x : Journaled ε α} {a : α} (h : x.outcome = .ok a)
    (f : α → Journaled ε β) : (x >>= f).written = x.written ++ (f a).written := by
  obtain ⟨log, written, outcome⟩ := x
  subst h
  rfl

/-- If no `f a` writes anything, `x >>= f` writes what `x` does, however `x` ends. -/
theorem written_bind_of_silent {f : α → Journaled ε β} (h : ∀ a, (f a).written = [])
    (x : Journaled ε α) : (x >>= f).written = x.written := by
  cases hx : x.outcome with
  | error e => simp only [bind, Journaled.bind, hx]
  | ok a => rw [written_bind_ok hx, h, List.append_nil]

@[simp] theorem outcome_debug (verbose : Bool) (text : Text) :
    (debug verbose text : Journaled ε Unit).outcome = .ok () := by
  cases verbose <;> rfl

@[simp] theorem written_debug (verbose : Bool) (text : Text) :
    (debug verbose text : Journaled ε Unit).written = [] := by
  cases verbose <;> rfl

end Journaled

end ShellDoc
