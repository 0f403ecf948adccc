import Mathlib.Data.List.Forall2
import PaymentRail.Strings.Numeral

/-!
# Csv — reading comma-separated records

A reader of the format of RFC 4180, as a machine that takes one character at a time: fields are
separated by commas, records end with CRLF, and a field in quotes may hold commas, line breaks and
doubled quotes.  A text that is not of this form is refused.

- `FieldText` : the two ways a field is written
- `parse_lines` : records whose fields are written so are read back
-/

namespace PaymentRail
namespace Strings
namespace Csv

/-! ## The reader -/

inductive Mode where
  /-- Before the first character of a field. -/
  | start
  | plain
  | quoted
  /-- Behind a quote that ends the field, or is the first of two. -/
  | closed
  /-- Behind the first character of a line break. -/
  | cr
  deriving DecidableEq, Repr

structure Reader where
  mode : Mode
  field : Text
  cells : List Text
  records : List (List Text)
  deriving DecidableEq, Repr

/-- At the beginning of a record. -/
def Reader.ofRecords (records : List (List Text)) : Reader where
  mode := .start
  field := []
  cells := []
  records := records

def Reader.push (r : Reader) (mode : Mode) (c : Char) : Reader :=
  { r with mode, field := r.field ++ [c] }

def Reader.endField (r : Reader) (mode : Mode) : Reader :=
  { r with mode, field := [], cells := r.cells ++ [r.field] }

/-- The next character of a field that is neither in quotes nor just closed. -/
def Reader.stepPlain (r : Reader) (c : Char) : Option Reader :=
  if c = ',' then some (r.endField .start)
  else if c = '\r' then some (r.endField .cr)
  else if c = '\n' then none
  else if c = '"' then none
  else some (r.push .plain c)

def Reader.step (r : Reader) (c : Char) : Option Reader :=
  match r.mode with
  | .start => if c = '"' then some { r with mode := .quoted } else r.stepPlain c
  | .plain => r.stepPlain c
  | .quoted => if c = '"' then some { r with mode := .closed } else some (r.push .quoted c)
  | .closed =>
      if c = '"' then some (r.push .quoted c)
      else if c = ',' then some (r.endField .start)
      else if c = '\r' then some (r.endField .cr)
      else none
  | .cr => if c = '\n' then some (.ofRecords (r.records ++ [r.cells])) else none

/-- The end of the text.  The last record need not end with a line break. -/
def Reader.finish (r : Reader) : Option (List (List Text)) :=
  match r.mode with
  | .quoted => none
  | .cr => none
  | .start =>
      if r.cells = [] then some r.records else some (r.records ++ [(r.endField .start).cells])
  | _ => some (r.records ++ [(r.endField .start).cells])

def Reader.run (r : Reader) (text : Text) : Option Reader := text.foldlM Reader.step r

def parse (text : Text) : Option (List (List Text)) :=
  ((Reader.ofRecords []).run text).bind Reader.finish

/-! ## Fields -/

/-- A character that a field without quotes cannot hold. -/
def isSpecial (c : Char) : Bool := ['"', ',', '\r', '\n'].contains c

def doubled (s : Text) : Text := s.flatMap fun c => if c = '"' then ['"', '"'] else [c]

/-- How a field may be written: as it is, or in quotes. -/
inductive FieldText (s : Text) : Text → Prop
  | plain (h : ∀ c ∈ s, isSpecial c = false) : FieldText s s
  | quoted : FieldText s ('"' :: doubled s ++ ['"'])

/-- A field has been read, and can end here. -/
structure Reader.Ready (r : Reader) (s : Text) : Prop where
  mode : r.mode = .start ∨ r.mode = .plain ∨ r.mode = .closed
  field : r.field = s

section Read

variable {r : Reader} {s : Text}

theorem ne_of_not_special {c : Char} (h : isSpecial c = false) :
    c ≠ '"' ∧ c ≠ ',' ∧ c ≠ '\r' ∧ c ≠ '\n' := by
  simpa [isSpecial] using h

theorem run_cons (r : Reader) (c : Char) (text : Text) :
    r.run (c :: text) = (r.step c).bind fun r' => r'.run text := rfl

theorem run_append (r : Reader) (a b : Text) : r.run (a ++ b) = (r.run a).bind fun r' => r'.run b :=
  List.foldlM_append

theorem step_plain {c : Char} (hmode : r.mode = .start ∨ r.mode = .plain)
    (hc : isSpecial c = false) : r.step c = some (r.push .plain c) := by
  rcases ne_of_not_special hc with ⟨hquote, hcomma, hcr, hlf⟩
  have hplain : r.stepPlain c = some (r.push .plain c) := by
    simp [Reader.stepPlain, hquote, hcomma, hcr, hlf]
  rcases hmode with hmode | hmode
  · simp [Reader.step, hmode, hquote, hplain]
  · simp [Reader.step, hmode, hplain]

/-- A field without special characters is read as it stands. -/
theorem run_plain (hmode : r.mode = .start ∨ r.mode = .plain) (h : ∀ c ∈ s, isSpecial c = false) :
    ∃ r', r.run s = some r' ∧ r'.Ready (r.field ++ s) ∧ r'.cells = r.cells ∧
      r'.records = r.records := by
  induction s generalizing r with
  | nil =>
      refine ⟨r, rfl, ⟨?_, (List.append_nil _).symm⟩, rfl, rfl⟩
      rcases hmode with hmode | hmode
      · exact Or.inl hmode
      · exact Or.inr (Or.inl hmode)
  | cons c s ih =>
      rcases List.forall_mem_cons.1 h with ⟨hc, hs⟩
      rcases ih (r := r.push .plain c) (Or.inr rfl) hs with ⟨r', hrun, hready, hcells, hrecords⟩
      refine ⟨r', ?_, ?_, hcells, hrecords⟩
      · rw [run_cons, step_plain hmode hc]
        exact hrun
      · rw [List.append_cons]
        exact hready

/-- Inside quotes every character is read, a doubled quote as one. -/
theorem run_doubled (hmode : r.mode = .quoted) :
    r.run (doubled s) = some { r with field := r.field ++ s } := by
  induction s generalizing r with
  | nil =>
      rw [List.append_nil]
      rfl
  | cons c s ih =>
      have hnext := ih (r := r.push .quoted c) rfl
      have hpush : { r.push .quoted c with field := (r.push .quoted c).field ++ s } =
          { r with field := r.field ++ c :: s } := by
        simp [Reader.push, hmode]
      rw [hpush] at hnext
      by_cases hc : c = '"'
      -- the first quote may end the field, the second one takes this back
      · subst hc
        have hfirst : r.step '"' = some { r with mode := .closed } := by simp [Reader.step, hmode]
        have hsecond : Reader.step { r with mode := .closed } '"' = some (r.push .quoted '"') := rfl
        show r.run ('"' :: '"' :: doubled s) = _
        rw [run_cons, hfirst, Option.bind_some, run_cons, hsecond]
        exact hnext
      · have htext : doubled (c :: s) = c :: doubled s := by simp [doubled, hc]
        rw [htext, run_cons]
        simpa [Reader.step, hmode, hc] using hnext

/-- A field is read whichever way it is written. -/
theorem run_field (hstart : r.mode = .start) (hfield : r.field = []) {text : Text}
    (h : FieldText s text) :
    ∃ r', r.run text = some r' ∧ r'.Ready s ∧ r'.cells = r.cells ∧ r'.records = r.records := by
  cases h with
  | plain h =>
      rcases run_plain (Or.inl hstart) h with ⟨r', hrun, hready, hcells, hrecords⟩
      rw [hfield] at hready
      exact ⟨r', hrun, hready, hcells, hrecords⟩
  | quoted =>
      refine ⟨{ r with mode := .closed, field := s }, ?_, ⟨Or.inr (Or.inr rfl), rfl⟩, rfl, rfl⟩
      have hopen : r.step '"' = some { r with mode := .quoted } := by simp [Reader.step, hstart]
      have hinside := run_doubled (r := { r with mode := .quoted }) (s := s) rfl
      rw [List.cons_append, run_cons, hopen, Option.bind_some, run_append, hinside, Option.bind_some]
      simp [Reader.run, Reader.step, hfield]

theorem Reader.Ready.step_comma (h : r.Ready s) : r.step ',' = some (r.endField .start) := by
  rcases h.mode with hmode | hmode | hmode <;> simp [Reader.step, Reader.stepPlain, hmode]

theorem Reader.Ready.step_cr (h : r.Ready s) : r.step '\r' = some (r.endField .cr) := by
  rcases h.mode with hmode | hmode | hmode <;> simp [Reader.step, Reader.stepPlain, hmode]

end Read

/-! ## Records -/

/-- How a record may be written. -/
def LineText (cells : List Text) (line : Text) : Prop :=
  ∃ fields, fields ≠ [] ∧ List.Forall₂ FieldText cells fields ∧
    line = List.intercalate [','] fields ++ ['\r', '\n']

/-- The fields of a record, and the line break behind them. -/
theorem run_fields {r : Reader} (hstart : r.mode = .start) (hfield : r.field = []) {cell text : Text}
    {cells fields : List Text} (hfirst : FieldText cell text)
    (hrest : List.Forall₂ FieldText cells fields) :
    r.run (List.intercalate [','] (text :: fields) ++ ['\r', '\n']) =
      some (.ofRecords (r.records ++ [r.cells ++ cell :: cells])) := by
  induction hrest generalizing r cell text with
  | nil =>
      rcases run_field hstart hfield hfirst with ⟨r', hrun, hready, hcells, hrecords⟩
      rw [List.intercalate_singleton, run_append, hrun, Option.bind_some, run_cons, hready.step_cr,
        Option.bind_some, run_cons]
      simp [Reader.run, Reader.step, Reader.endField, hready.field, hcells, hrecords]
  | @cons next nextText cells fields hnext _ ih =>
      rcases run_field hstart hfield hfirst with ⟨r', hrun, hready, hcells, hrecords⟩
      have htail := ih (r := r'.endField .start) rfl rfl hnext
      have hend : ((r'.endField .start).records, (r'.endField .start).cells) =
          (r.records, r.cells ++ [cell]) := by
        simp [Reader.endField, hready.field, hcells, hrecords]
      rcases Prod.mk.inj hend with ⟨hendRecords, hendCells⟩
      rw [hendRecords, hendCells, List.append_assoc] at htail
      rw [List.intercalate_cons_cons, List.append_assoc, List.append_assoc, run_append, hrun,
        Option.bind_some]
      show r'.run (',' :: _) = _
      rw [run_cons, hready.step_comma]
      exact htail

theorem run_lines {records : List (List Text)} {lines : List Text}
    (h : List.Forall₂ LineText records lines) (before : List (List Text)) :
    (Reader.ofRecords before).run lines.flatten = some (.ofRecords (before ++ records)) := by
  induction h generalizing before with
  | nil =>
      rw [List.append_nil]
      rfl
  | @cons cells line records lines hline _ ih =>
      rcases hline with ⟨fields, hne, hfields, rfl⟩
      cases hfields with
      | nil => exact absurd rfl hne
      | @cons cell text cells fields hfirst hrest =>
          have hrun := run_fields (r := .ofRecords before) rfl rfl hfirst hrest
          have hlater := ih (before ++ [cell :: cells])
          rw [List.append_assoc] at hlater
          rw [List.flatten_cons, run_append, hrun]
          exact hlater

/-- Records that are written line by line are read back as they are. -/
theorem parse_lines {records : List (List Text)} {lines : List Text}
    (h : List.Forall₂ LineText records lines) : parse lines.flatten = some records := by
  rw [parse, run_lines h [], Option.bind_some, List.nil_append]
  rfl

example : parse "a,\"b\"\"c\",\r\n".toList = some [[['a'], "b\"c".toList, []]] := by decide

end Csv
end Strings
end PaymentRail
