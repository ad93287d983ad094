import Mathlib.Data.List.Basic
import ShellDoc.Proofs.Answer
import ShellDoc.Proofs.Criterion

/-!
# Help for one command

Help for a command is asked for by the name under which the command is shown, and found by its full
name. Since the prefix is put in front and taken off again, both name the same functions.

* `Dispatch.displayName?_helpCriterion_all`, `Dispatch.displayName?_helpCriterion_command`: what
  shows for all commands and for one.
* `Dispatch.scan_helpCriterion_eq_filter`: help for one command is a part of help for all.
-/

namespace ShellDoc

namespace Dispatch

variable {command name shown : Text} {namePrefix : Option Text}

/-- Help for all shows the functions that have a `fullName`, each under what makes its name full. -/
theorem displayName?_helpCriterion_all :
    (helpCriterion none namePrefix).displayName? name = some shown ↔
      name = fullName namePrefix shown := Criterion.displayName?_of_no_target rfl

/-- Help for one command shows the functions of its `fullName`. -/
theorem displayName?_helpCriterion_command (hc : command ≠ []) :
    (helpCriterion (some command) namePrefix).displayName? name = some shown ↔
      name = fullName namePrefix command ∧ shown = command := by
  have hfull : fullName namePrefix command ≠ [] := fun h => hc (List.append_eq_nil_iff.1 h).2
  have hgiven : ∀ {text : Text}, text ≠ [] → Text.given (some text) = some text := by
    intro text h
    simp [Text.given, h]
  have htarget : Text.given (helpCriterion (some command) namePrefix).target =
      some (fullName namePrefix command) := by
    unfold helpCriterion
    rw [hgiven hc, Option.map_some, hgiven hfull]
  rw [Criterion.displayName?_eq_some_iff, htarget]
  constructor
  · rintro ⟨hname, hshown⟩
    obtain rfl := hname _ rfl
    exact ⟨rfl, (List.append_cancel_left hshown).symm⟩
  · rintro ⟨rfl, rfl⟩
    exact ⟨fun target h => Option.some.inj h, rfl⟩

/-- What help for one command makes of the record `r`. -/
theorem shown?_helpCriterion_command (hc : command ≠ []) (r : Record) :
    (helpCriterion (some command) namePrefix).shown? r =
      if r.name = fullName namePrefix command then some ⟨command, r.comment⟩ else none := by
  apply Option.ext
  rintro ⟨shown, comment⟩
  rw [Criterion.shown?_eq_some_iff, displayName?_helpCriterion_command hc]
  by_cases h : r.name = fullName namePrefix command
  · simp [h, eq_comm]
  · simp [h]

theorem scan_helpCriterion_eq_filter (hc : command ≠ []) (lines : List Text) :
    scan (helpCriterion (some command) namePrefix) lines =
      (scan (helpCriterion none namePrefix) lines).filter fun r => r.name = command := by
  rw [scan_eq_filterMap (helpCriterion (some command) namePrefix),
    scan_eq_filterMap (helpCriterion none namePrefix), List.filter_filterMap]
  apply List.filterMap_congr
  intro r _
  apply Option.ext
  intro r'
  simp only [Option.filter_eq_some_iff, Criterion.shown?_eq_some_iff, decide_eq_true_eq,
    displayName?_helpCriterion_command hc, displayName?_helpCriterion_all]
  constructor
  · rintro ⟨⟨hname, hshown⟩, hcomment⟩
    exact ⟨⟨hshown ▸ hname, hcomment⟩, hshown⟩
  · rintro ⟨⟨hname, hcomment⟩, hshown⟩
    exact ⟨⟨hshown ▸ hname, hshown⟩, hcomment⟩

theorem scan_helpCriterion_eq_map (hc : command ≠ []) (lines : List Text) :
    scan (helpCriterion (some command) namePrefix) lines =
      ((scan .all lines).filter fun r => r.name = fullName namePrefix command).map
        fun r => ⟨command, r.comment⟩ := by
  rw [scan_eq_filterMap, ← List.filterMap_eq_map, List.filterMap_filter]
  apply List.filterMap_congr
  intro r _
  rw [shown?_helpCriterion_command hc]
  simp

/-- `help` for one command of a script that can be read writes those records of `help` for all that
are shown under the command's name, in the same order. They are the functions whose own name is the
`fullName` of the command, which is also the key under which `run` looks for it. -/
theorem help_command_eq_filter_help {h : Host} {script : Text} {lines : List Text}
    (hl : Extract.sourceLines h script = .ok lines) (verbose : Bool) (namePrefix : Option Text)
    {command : Text} (hc : command ≠ []) :
    (help h verbose script (some command) namePrefix).outcome =
        .ok (Extract.write (scan (helpCriterion (some command) namePrefix) lines)) ∧
      (help h verbose script none namePrefix).outcome =
        .ok (Extract.write (scan (helpCriterion none namePrefix) lines)) ∧
      (help h verbose script (some command) namePrefix).written =
        (scan (helpCriterion (some command) namePrefix) lines).map Record.render ∧
      scan (helpCriterion (some command) namePrefix) lines =
        (scan (helpCriterion none namePrefix) lines).filter (fun r => r.name = command) ∧
      scan (helpCriterion (some command) namePrefix) lines =
        ((scan .all lines).filter fun r => r.name = fullName namePrefix command).map
          (fun r => ⟨command, r.comment⟩) ∧
      ∀ d argv p args, d.namePrefix = namePrefix → ReadsPlain d argv p →
        p.positionals = command :: args →
        run h verbose d argv =
          match d.commands.find? (fullName namePrefix command) with
          | none => ([], { stderr := [notRecognized command], result := .ok 1 })
          | some handler => ([], call (fullName namePrefix command) handler args p.options) := by
  refine ⟨outcome_help_of_ok hl .., outcome_help_of_ok hl .., ?_,
    scan_helpCriterion_eq_filter hc lines, scan_helpCriterion_eq_map hc lines, ?_⟩
  · rw [written_help, Extract.sourceLines_eq_ok_iff.1 hl]
  · rintro d argv p args rfl hp hpos
    exact run_of_command hp hpos hc h verbose

/-- A script with a function named as the prefix `p`, and two that are named as the prefix twice. -/
def repeatedText : Text := "p() \x7b\n# one\npp() \x7b\npp() \x7b\n"

/-- A host with `repeatedText` as `s` in its root. -/
def repeatedHost : Host :=
  ⟨⟨[([['s']], .file (repeatedText.map fun c => UInt8.ofNat c.toNat) false)]⟩, .root, []⟩

/-- The command `p`, which does nothing. -/
def repeatedScript : ScriptDefinition where
  script := ['s']
  namePrefix := some ['p']
  options := .empty
  commands := .ofList [(['p', 'p'], fun _ _ => .done)]

theorem help_command_of_repeatedHost :
    Extract.sourceLines repeatedHost ['s'] = .ok (Lines.read repeatedText) ∧
      (help repeatedHost false ['s'] (some ['p']) (some ['p'])).outcome =
        .ok ⟨[("  p\n    one\n\n" : String), ("  p\n" : String)], 2⟩ ∧
      run repeatedHost false repeatedScript [['p']] =
        ([], call ['p', 'p'] (fun _ _ => .done) [] .empty) := by
  have hl : Extract.sourceLines repeatedHost ['s'] = .ok (Lines.read repeatedText) := rfl
  have h := help_command_eq_filter_help hl false (some ['p']) (List.cons_ne_nil 'p' [])
  refine ⟨hl, h.1.trans (congrArg Except.ok (by decide)), ?_⟩
  exact h.2.2.2.2.2 repeatedScript [['p']] ⟨.empty, [['p']]⟩ [] rfl ⟨rfl, rfl⟩ rfl

end Dispatch

end ShellDoc
