import Mathlib.Data.List.Induction
import ShellDoc.Proofs.CommentBlock
import ShellDoc.Proofs.ScannerRun

/-!
# What a scanner remembers

Lines and ends of input may come to one scanner in any order. What it holds at any moment is told by
what has come since it was last reset: comment lines, and behind them perhaps one header that waits.

* `Scanner.Resets`: the operations behind which nothing that came before counts. Each leads back to
  the start (`Resets.perform_eq`), and any other is a comment or a header that begins to wait, given
  to a scanner in which none waits yet (`resets_or_extends`).
* `Scanner.SinceReset`: a history cut behind its last reset. The cut determines the scanner
  (`SinceReset.performAll_eq`), and every history has one (`exists_sinceReset`).
* `Scanner.performAll_tells_since_reset`: hence what the two fields of a scanner say.
-/

namespace ShellDoc.Scanner

variable {c : Criterion} {s : Scanner} {op : Op} {ops : List Op}

/-! ## Resets -/

/-- Operations behind which nothing that came before counts: `finish`, a line that completes a
record, a line for which a header has waited, and a line that is neither a comment nor a
`bareHeader`. -/
inductive Resets (c : Criterion) (s : Scanner) : Op → Prop where
  | finish : Resets c s .finish
  | completed {line : Text} {r : Record} (h : (push c s line).2 = some r) : Resets c s (.push line)
  | awaited {line : Text} (h : s.isAwaiting = true) : Resets c s (.push line)
  | kind {line : Text} (h : Line.classify line ∈ [.inlineHeader, .openBrace, .other]) :
      Resets c s (.push line)

/-- `line` adds to what `s` holds: no header waits, and `line` is a comment or a `bareHeader`. -/
def Extends (s : Scanner) (line : Text) : Prop :=
  s.pending = none ∧ (Line.classify line = .comment ∨ Line.classify line = .bareHeader)

theorem push_snd_of_extends {line : Text} (h : Extends s line) : (push c s line).2 = none := by
  obtain ⟨hs, hk | hk⟩ := h
  · rw [push_comment hs hk]
  · rw [push_bareHeader hs hk]

/-- `push` of a line that does not extend `s` leads to `start`. -/
theorem push_fst_of_not_extends {line : Text} (h : ¬Extends s line) :
    (push c s line).1 = start := by
  cases hs : s.pending with
  | some header => rw [push_awaiting hs]
  | none =>
    cases hk : Line.classify line with
    | comment => exact absurd ⟨hs, .inl hk⟩ h
    | bareHeader => exact absurd ⟨hs, .inr hk⟩ h
    | inlineHeader => rw [push_inlineHeader hs hk]
    | openBrace => rw [push_openBrace hs hk]
    | other => rw [push_other s hk]

/-- An operation that resets leads to `start` from every state. -/
theorem Resets.perform_eq (h : Resets c s op) : perform c s op = start := by
  cases h with
  | finish => rfl
  | completed hr =>
    refine push_fst_of_not_extends fun he => ?_
    rw [push_snd_of_extends he] at hr
    cases hr
  | awaited hs =>
    refine push_fst_of_not_extends fun ⟨hnone, _⟩ => ?_
    simp [isAwaiting, hnone] at hs
  | kind hk =>
    refine push_fst_of_not_extends fun ⟨_, he⟩ => ?_
    rcases he with he | he <;> simp [he] at hk

theorem resets_or_extends (c : Criterion) (s : Scanner) (op : Op) :
    Resets c s op ∨ ∃ line, op = .push line ∧ Extends s line := by
  cases op with
  | finish => exact .inl .finish
  | push line =>
    cases hs : s.pending with
    | some header => exact .inl (.awaited (by simp [isAwaiting, hs]))
    | none =>
      cases hk : Line.classify line with
      | comment => exact .inr ⟨line, rfl, hs, .inl hk⟩
      | bareHeader => exact .inr ⟨line, rfl, hs, .inr hk⟩
      | inlineHeader => exact .inl (.kind (by simp [hk]))
      | openBrace => exact .inl (.kind (by simp [hk]))
      | other => exact .inl (.kind (by simp [hk]))

/-! ## Histories -/

/-- The history `ops` cut behind its last reset: since then `comments` have come, and behind them at
most a `header` without its brace. -/
structure SinceReset (c : Criterion) (ops : List Op) where
  before : List Op
  comments : List Text
  header : Option Text
  ops_eq : ops = before ++ (comments ++ header.toList).map .push
  reset : before = [] ∨
    ∃ earlier op, before = earlier ++ [op] ∧ Resets c (performAll c .start earlier) op
  comment : ∀ line ∈ comments, Line.classify line = .comment
  bareHeader : ∀ line ∈ header, Line.classify line = .bareHeader

/-- Comment lines that come at `start` are all in the block, less decoration. -/
theorem performAll_comments {comments : List Text}
    (h : ∀ line ∈ comments, Line.classify line = .comment) :
    performAll c start (comments.map .push) = ⟨Comment.join (Comment.kept comments), none⟩ := by
  induction comments using List.reverseRecOn with
  | nil => rfl
  | append_singleton comments line ih =>
    obtain ⟨hcomments, hline⟩ := List.forall_mem_append.1 h
    have hk : Line.classify line = .comment := hline line (by simp)
    rw [List.map_append, performAll_append, ih hcomments, List.map_singleton, performAll_cons,
      performAll_nil, perform, push_comment rfl hk, Comment.kept_append,
      Comment.append_join fun _ => Comment.ne_nil_of_mem_kept]

/-- A `bareHeader` waits and leaves the block alone. -/
theorem performAll_header {block : Text} {header : Option Text}
    (h : ∀ line ∈ header, Line.classify line = .bareHeader) :
    performAll c ⟨block, none⟩ (header.toList.map .push) = ⟨block, header⟩ := by
  cases header with
  | none => rfl
  | some line =>
    have hk : Line.classify line = .bareHeader := h line rfl
    rw [Option.toList_some, List.map_singleton, performAll_cons, performAll_nil, perform,
      push_bareHeader rfl hk]

namespace SinceReset

theorem performAll_before (h : SinceReset c ops) : performAll c .start h.before = start := by
  rcases h.reset with hnil | ⟨earlier, op, hbefore, hop⟩
  · rw [hnil, performAll_nil]
  · rw [hbefore, performAll_append, performAll_cons, performAll_nil, hop.perform_eq]

/-- What has come since the last reset is all that the scanner holds. -/
theorem performAll_eq (h : SinceReset c ops) :
    performAll c .start ops = ⟨Comment.join (Comment.kept h.comments), h.header⟩ :=
  calc performAll c .start ops
    _ = performAll c .start (h.before ++ (h.comments ++ h.header.toList).map .push) :=
      congrArg _ h.ops_eq
    _ = performAll c (performAll c start (h.comments.map .push)) (h.header.toList.map .push) := by
      rw [performAll_append, h.performAll_before, List.map_append, performAll_append]
    _ = ⟨Comment.join (Comment.kept h.comments), h.header⟩ := by
      rw [performAll_comments h.comment, performAll_header h.bareHeader]

/-- The cut of the history up to one of its `comments`. -/
def upTo (h : SinceReset c ops) (n : Nat) :
    SinceReset c (h.before ++ (h.comments.take n).map .push) where
  before := h.before
  comments := h.comments.take n
  header := none
  ops_eq := by simp
  reset := h.reset
  comment := fun line hline => h.comment line (List.mem_of_mem_take hline)
  bareHeader := by simp

/-- No header waits while the `comments` come. -/
theorem isAwaiting_upTo (h : SinceReset c ops) (n : Nat) :
    (performAll c .start (h.before ++ (h.comments.take n).map .push)).isAwaiting = false := by
  rw [(h.upTo n).performAll_eq]
  rfl

/-- One more operation `op` is the last reset, or it goes behind the `comments`. -/
theorem exists_concat (h : SinceReset c ops) (op : Op) : Nonempty (SinceReset c (ops ++ [op])) := by
  rcases resets_or_extends c (performAll c .start ops) op with hop | ⟨line, rfl, hidle, hk⟩
  · exact ⟨⟨ops ++ [op], [], none, by simp, .inr ⟨ops, op, rfl, hop⟩, by simp, by simp⟩⟩
  · -- no header waits, so the history so far ends with the comment lines
    have hheader : h.header = none := by rwa [h.performAll_eq] at hidle
    have hops : ops = h.before ++ h.comments.map .push := by simpa [hheader] using h.ops_eq
    rcases hk with hk | hk
    · refine ⟨⟨h.before, h.comments ++ [line], none, by simp [hops], h.reset, ?_, by simp⟩⟩
      exact List.forall_mem_append.2 ⟨h.comment, by simpa using hk⟩
    · refine ⟨⟨h.before, h.comments, some line, by simp [hops], h.reset, h.comment, ?_⟩⟩
      simpa using hk

end SinceReset

theorem exists_sinceReset (c : Criterion) (ops : List Op) : Nonempty (SinceReset c ops) := by
  induction ops using List.reverseRecOn with
  | nil => exact ⟨⟨[], [], none, rfl, .inl rfl, by simp, by simp⟩⟩
  | append_singleton ops op ih =>
    obtain ⟨h⟩ := ih
    exact h.exists_concat op

/-- What a scanner holds after any `ops`. If a header waits, it is the line that came last, and it
is a `bareHeader`. The block is the `join` of what is `kept` of the comment lines that have come one
after the other since the last reset, while no header waited; nothing but the header that waits has
come behind them. And an operation that `Resets`, from whatever state, leads to `start`, so that
everything later is answered as by a new scanner. -/
theorem performAll_tells_since_reset (c : Criterion) (ops : List Op) :
    ((performAll c .start ops).isAwaiting = true → ∃ header,
      (performAll c .start ops).pending = some header ∧ ops.getLast? = some (.push header) ∧
        Line.classify header = .bareHeader) ∧
      (∃ h : SinceReset c ops,
        performAll c .start ops = ⟨Comment.join (Comment.kept h.comments), h.header⟩ ∧
        ((performAll c .start ops).block = [] ↔ Comment.kept h.comments = []) ∧
        ∀ n, (performAll c .start (h.before ++ (h.comments.take n).map .push)).isAwaiting = false) ∧
      ∀ op, Resets c (performAll c .start ops) op →
        performAll c .start (ops ++ [op]) = start ∧ ∀ later,
          answers c .start (ops ++ op :: later) =
            answers c .start (ops ++ [op]) ++ answers c .start later ∧
          trace c .start (ops ++ op :: later) =
            trace c .start (ops ++ [op]) ++ trace c .start later := by
  obtain ⟨h⟩ := exists_sinceReset c ops
  refine ⟨fun hwait => ?_, ⟨h, h.performAll_eq, ?_, h.isAwaiting_upTo⟩, fun op hop => ?_⟩
  · rw [h.performAll_eq] at hwait ⊢
    obtain ⟨header, hheader⟩ := Option.isSome_iff_exists.1 hwait
    refine ⟨header, hheader, ?_, h.bareHeader header hheader⟩
    have hlast : ops = (h.before ++ h.comments.map .push) ++ [.push header] := by
      simpa [show h.header = some header from hheader] using h.ops_eq
    rw [hlast, List.getLast?_concat]
  · rw [h.performAll_eq]
    exact Comment.join_eq_nil_iff fun _ => Comment.ne_nil_of_mem_kept
  · have hstart : performAll c .start (ops ++ [op]) = start := by
      rw [performAll_append, performAll_cons, performAll_nil, hop.perform_eq]
    refine ⟨hstart, fun later => ?_⟩
    rw [List.append_cons, answers_append, trace_append, hstart]
    exact ⟨rfl, rfl⟩

/-- A header waits under a comment and a rule. -/
def waitingOps : List Op :=
  [.push ("f() \x7b" : String), .finish, .push ("# one" : String), .push ("# ---" : String),
    .push ("g()" : String)]

theorem performAll_waitingOps :
    (performAll .all .start waitingOps).isAwaiting = true ∧
      waitingOps.getLast? = some (.push ("g()" : String)) ∧
      Resets .all (performAll .all .start waitingOps) (.push ['\x7b']) ∧
      answers .all .start (waitingOps ++ [.push ['\x7b'], .push ("h() \x7b" : String)]) =
        answers .all .start (waitingOps ++ [.push ['\x7b']]) ++ [some ⟨['h'], []⟩] := by
  have hwait : (performAll .all .start waitingOps).isAwaiting = true := by decide
  have hreset : Resets .all (performAll .all .start waitingOps) (.push ['\x7b']) := .awaited hwait
  obtain ⟨hheader, -, hlater⟩ := performAll_tells_since_reset .all waitingOps
  obtain ⟨header, hpending, hlast, -⟩ := hheader hwait
  have hg : header = ("g()" : String) := by
    have hheld : (performAll .all .start waitingOps).pending = some ("g()" : String) := by decide
    exact Option.some.inj (hpending.symm.trans hheld)
  refine ⟨hwait, hg ▸ hlast, hreset, ?_⟩
  rw [((hlater _ hreset).2 [.push ("h() \x7b" : String)]).1]
  exact congrArg _ (by decide)

end ShellDoc.Scanner
