import Reckoner.Keypad.Dialogue
import Reckoner.Proofs.Keypad.Atomicity
import Reckoner.Proofs.Keypad.Faults

/-!
# The course of a dialogue

A dialogue does nothing with a session that keys, the ENTER key and the theme switch do not do: every line stands for some
steps, and the lines up to the first that ends the dialogue are dealt with one after another.
-/

namespace Reckoner

/-- Whether a character is the label of a key. -/
def Key.isLabel (c : Char) : Bool := Key.all.any fun key => key.label == c

/-- The steps that a line stands for: it switches the theme, is the ENTER key when it is blank, or presses the keys whose
labels it has, in order. -/
def Step.ofLine (line : List Char) : List Step :=
  if Text.normalized line = "theme".toList then [.toggle]
  else if Text.normalized line = [] then [.enter]
  else (line.filter Key.isLabel).map fun c => .press c.toString

/-- Whether a line ends the dialogue. -/
def Request.isLast (line : List Char) : Bool :=
  Text.normalized line == "quit".toList || Text.normalized line == "exit".toList

/-- A session before the first and after each of some lines. -/
def Session.course (session : Session) (lines : List (List Char)) : List Session :=
  lines.scanl (fun session line => session.run (Step.ofLine line)) session

/-! ### Keys in a line -/

namespace Key

theorem isLabel_eq (c : Char) : isLabel c = (ofChar? c).isSome := List.isSome_find?.symm

theorem presses_eq (line : List Char) : (line.filter isLabel).map (fun c => Step.press c.toString) =
    (line.filterMap ofChar?).map fun key => .press key.label.toString := by
  induction line with
  | nil => rfl
  | cons c line ih =>
    cases hkey : ofChar? c with
    | none =>
      rw [List.filter_cons_of_neg (by simp [isLabel_eq, hkey]), List.filterMap_cons_none hkey, ih]
    | some key =>
      rw [List.filter_cons_of_pos (by simp [isLabel_eq, hkey]), List.filterMap_cons_some hkey, List.map_cons,
        List.map_cons, ih, label_of_ofChar? hkey]

end Key

/-! ### Lines one after another -/

namespace Request

theorem ofList_eq_iff {word : List Char} {text : String} : String.ofList word = text ↔ word = text.toList := by
  rw [← String.toList_inj, String.toList_ofList]

theorem isLast_iff {line : List Char} : isLast line ↔
    String.ofList (Text.normalized line) = "quit" ∨ String.ofList (Text.normalized line) = "exit" := by
  simp [isLast, ofList_eq_iff]

end Request

namespace Session

section Lines

variable {session : Session} {line : List Char} {lines : List (List Char)}

/-- The places of a session leave room for every number. -/
def Roomy (session : Session) : Prop := 0 ≤ session.places ∧ session.places ≤ 15

theorem Roomy.run (hroomy : session.Roomy) (steps : List Step) : (session.run steps).Roomy := by
  rw [Roomy, places_run]
  exact hroomy

theorem step_press (session : Session) (key : Key) :
    session.step (.press key.label.toString) = (session.pressKey key).mapError .unwritable := by
  change session.press key.label.toString = _
  rw [press, Key.ofLabel?_label]

theorem pressKeys_eq (hroomy : session.Roomy) (keys : List Key) :
    session.pressKeys keys = .ok (session.run (keys.map fun key => .press key.label.toString)) := by
  induction keys generalizing session with
  | nil => rfl
  | cons key keys ih =>
    have hkey : ∀ label, Step.press key.label.toString = .press label → (Key.ofLabel? label).isSome := by
      rintro label hlabel
      rw [← Step.press.inj hlabel, Key.ofLabel?_label]
      rfl
    obtain ⟨next, hstep⟩ := exists_step hroomy hkey
    have hpressed := hstep
    rw [step_press, mapError_eq_ok_iff] at hpressed
    have hafter := after_of_ok hstep
    have hroomy : next.Roomy := hafter ▸ hroomy.run [.press key.label.toString]
    rw [pressKeys, List.foldlM_cons, hpressed, ok_bind, ← pressKeys, ih hroomy, List.map_cons, run, run,
      List.foldl_cons, hafter]

theorem answer_of_isLast (session : Session) (hlast : Request.isLast line) :
    session.answer (.ofLine line) = .ok none := by
  rw [Request.ofLine, if_pos (Request.isLast_iff.1 hlast)]
  rfl

/-- A line that does not end the dialogue does what its steps do. -/
theorem answer_of_not_isLast (hroomy : session.Roomy) (hlast : ¬ Request.isLast line) :
    session.answer (.ofLine line) = .ok (some (session.run (Step.ofLine line))) := by
  rw [Request.ofLine, if_neg (fun hword => hlast (Request.isLast_iff.2 hword)), Step.ofLine]
  by_cases htheme : Text.normalized line = "theme".toList
  · rw [if_pos (Request.ofList_eq_iff.2 htheme), if_pos htheme]
    rfl
  · rw [if_neg (fun hword => htheme (Request.ofList_eq_iff.1 hword)), if_neg htheme]
    by_cases hblank : Text.normalized line = []
    · rw [if_pos (Request.ofList_eq_iff.2 hblank), if_pos hblank]
      obtain ⟨next, hstep⟩ : ∃ next, session.step .enter = .ok next := exists_step hroomy (by simp)
      change session.enter.map some = _
      rw [mapError_eq_ok_iff.1 hstep, run, List.foldl_cons, after_of_ok hstep]
      rfl
    · rw [if_neg (fun hword => hblank (Request.ofList_eq_iff.1 hword)), if_neg hblank, Key.presses_eq]
      change (session.pressKeys _).map some = _
      rw [pressKeys_eq hroomy]
      rfl

theorem course_cons (session : Session) (line : List Char) (lines : List (List Char)) :
    session.course (line :: lines) = session :: (session.run (Step.ofLine line)).course lines := List.scanl_cons

theorem cons_tail_course (session : Session) (lines : List (List Char)) :
    session :: (session.course lines).tail = session.course lines := by
  cases lines with
  | nil => rfl
  | cons line lines => rw [course_cons, List.tail_cons]

/-- A dialogue deals with the lines before the first that ends it, and asks for one line more than that. -/
theorem converse_eq (hroomy : session.Roomy) (lines : List (List Char)) :
    let handled := lines.takeWhile (!Request.isLast ·)
    session.converse lines = .ok ⟨(session.course handled).tail, handled.length + 1⟩ := by
  induction lines generalizing session with
  | nil => rfl
  | cons line lines ih =>
    rw [converse]
    cases hlast : Request.isLast line with
    | true =>
      rw [answer_of_isLast session hlast, List.takeWhile_cons_of_neg (by simp [hlast])]
      rfl
    | false =>
      rw [answer_of_not_isLast hroomy (by simp [hlast]), List.takeWhile_cons_of_pos (by simp [hlast])]
      rw [ok_bind]
      dsimp only
      rw [ih (hroomy.run _), ok_bind, course_cons, List.tail_cons, ← cons_tail_course]
      rfl

theorem isSome_of_mem_ofLine {label : String} (hmem : .press label ∈ Step.ofLine line) :
    (Key.ofLabel? label).isSome := by
  unfold Step.ofLine at hmem
  split at hmem
  · simp at hmem
  · split at hmem
    · simp at hmem
    · rw [Key.presses_eq] at hmem
      obtain ⟨key, -, hkey⟩ := List.mem_map.1 hmem
      rw [← Step.press.inj hkey, Key.ofLabel?_label]
      rfl

/-- None of the steps that lines stand for fails. -/
theorem done_eq_self (hroomy : session.Roomy) {steps : List Step}
    (hkeys : ∀ label, .press label ∈ steps → (Key.ofLabel? label).isSome) : session.done steps = steps := by
  induction steps generalizing session with
  | nil => rfl
  | cons step steps ih =>
    obtain ⟨next, hstep⟩ := exists_step hroomy fun label hlabel => hkeys label (hlabel ▸ List.mem_cons_self)
    have hnext : (session.after step).Roomy := hroomy.run [step]
    rw [done, hstep, ih hnext fun label hmem => hkeys label (List.mem_cons_of_mem _ hmem)]
    rfl

end Lines

end Session

end Reckoner
