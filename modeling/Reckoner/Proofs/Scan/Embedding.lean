import Reckoner.Proofs.Scan.Completion

/-!
# Embedding

A text reads the same inside of parentheses, further to the right, as it does on its own. What encloses it from outside
stays as it is, as long as the text does not close it. The other way round, whatever stands behind a parenthesis that is
still open has been read as a text of its own.
-/

namespace Reckoner

def Enclosure.relocate (place : Nat → Nat) : Enclosure → Enclosure
  | parenthesis position => parenthesis (place position)
  | sign => sign

def Expectation.relocate (place : Nat → Nat) : Expectation → Expectation
  | operand => operand
  | number position first others => number (place position) first others
  | operator => operator

namespace Scan

/-- A point inside of more, with every position at its new place. -/
def within (place : Nat → Nat) (base : List Enclosure) (scan : Scan) : Scan :=
  ⟨place scan.position, scan.enclosing.map (Enclosure.relocate place) ++ base, scan.expects.relocate place⟩

variable {place : Nat → Nat} {base : List Enclosure} {limit : Option Nat} {c : Char} {scan next : Scan}
  {text read : List Char}

theorem behindOperand_within (hbase : behindOperand base = base) (enclosing : List Enclosure) :
    behindOperand (enclosing.map (Enclosure.relocate place) ++ base) =
      (behindOperand enclosing).map (Enclosure.relocate place) ++ base := by
  induction enclosing with
  | nil => exact hbase
  | cons enclosure enclosing ih =>
    cases enclosure with
    | parenthesis position => rfl
    | sign => exact ih

theorem within_next {position : Nat} (hplace : place (position + 1) = place position + 1) (base : List Enclosure)
    (enclosing : List Enclosure) (expects : Expectation) :
    within place base ⟨position + 1, enclosing, expects⟩ =
      ⟨place position + 1, enclosing.map (Enclosure.relocate place) ++ base, expects.relocate place⟩ := by
  rw [within, hplace]

theorem Move.within (hmove : Move c scan next) (hbase : behindOperand base = base)
    (hplace : place (scan.position + 1) = place scan.position + 1) :
    Move c (scan.within place base) (next.within place base) := by
  induction hmove with
  | number hpart =>
    rw [within_next hplace]
    exact .number hpart
  | operandBlank hblank =>
    rw [within_next hplace]
    exact .operandBlank hblank
  | @opening position enclosing opening hopening =>
    rw [within_next hplace, List.map_cons, List.cons_append]
    cases opening <;> exact .opening hopening
  | part hpart =>
    rw [within_next hplace]
    exact .part hpart
  | numberEnd hpart hread hmove ih =>
    have hinner := ih hplace
    rw [Scan.within, ← behindOperand_within hbase] at hinner
    exact .numberEnd hpart hread hinner
  | operatorBlank hblank =>
    rw [within_next hplace]
    exact .operatorBlank hblank
  | operator hoperator =>
    rw [within_next hplace]
    exact .operator hoperator
  | closing hclosing =>
    rw [within_next hplace, ← behindOperand_within hbase]
    exact .closing hclosing

theorem feed_within (place : Nat → Nat) (base : List Enclosure) (hfeed : feed none scan read = .ok next)
    (hbase : behindOperand base = base) (hplace : ∀ position, place (position + 1) = place position + 1) :
    feed none (scan.within place base) read = .ok (next.within place base) := by
  refine feed_induction none scan
    (fun read next => feed none (scan.within place base) read = .ok (next.within place base)) rfl ?_ _ _ hfeed
  intro read c point next _ _ hmove hpoint
  rw [feed_snoc, hpoint, ok_bind, (hmove.within hbase (hplace _)).step]

theorem settled_within (hscan : scan.Settled) (hbase : behindOperand base = base) :
    (scan.within place base).Settled := by
  intro hexpects
  have hoperator : scan.expects = .operator := by
    cases hscan : scan.expects with
    | operator => rfl
    | _ => exact absurd hexpects (by simp [within, hscan, Expectation.relocate])
  rw [within, behindOperand_within hbase, hscan hoperator]

theorem hasOperand_within : (scan.within place base).HasOperand ↔ scan.HasOperand := by
  obtain ⟨position, enclosing, expects⟩ := scan
  cases expects <;> exact Iff.rfl

/-! ### Behind an open parenthesis -/

theorem within_start (opened : Nat) (outer : List Enclosure) :
    start.within (· + (opened + 1)) (.parenthesis opened :: outer) =
      ⟨opened + 1, .parenthesis opened :: outer, .operand⟩ := by
  simp only [within, start, Nat.zero_add, List.map_nil, List.nil_append, Expectation.relocate]

theorem Move.of_opening (hmove : Move '(' scan next) :
    scan.expects = .operand ∧ next = ⟨scan.position + 1, .parenthesis scan.position :: scan.enclosing, .operand⟩ := by
  cases hmove with
  | number hpart => exact absurd hpart (by decide)
  | operandBlank hblank => exact absurd hblank (by decide)
  | opening hopening =>
    obtain rfl := Option.some.inj hopening
    exact ⟨rfl, rfl⟩
  | part hpart => exact absurd hpart (by decide)
  | numberEnd hpart hread hmove => exact absurd hmove (not_move_of_ends ⟨⟨by decide, rfl⟩, rfl⟩ (by decide))
  | operatorBlank hblank => exact absurd hblank (by decide)
  | operator hoperator => exact absurd hoperator (by decide)
  | closing hclosing => exact absurd hclosing (by decide)

theorem exists_opening {before inside : List Char} (hfeed : feed none start (before ++ '(' :: inside) = .ok next) :
    ∃ point outer, feed none start before = .ok point ∧
      Move '(' point (start.within (· + (before.length + 1)) (.parenthesis before.length :: outer)) ∧
      feed none (start.within (· + (before.length + 1)) (.parenthesis before.length :: outer)) inside = .ok next := by
  rw [feed_append, bind_eq_ok_iff] at hfeed
  obtain ⟨point, hbefore, hfeed⟩ := hfeed
  rw [feed_cons, bind_eq_ok_iff] at hfeed
  obtain ⟨opened, hstep, hfeed⟩ := hfeed
  have hopening := move_of_step hstep
  obtain ⟨-, rfl⟩ := hopening.of_opening
  have hposition : point.position = before.length := position_of_feed_start hbefore
  rw [hposition, ← within_start] at hopening hfeed
  exact ⟨point, point.enclosing, hbefore, hopening, hfeed⟩

/-- What stands behind an opening parenthesis, read on its own, leads to the same point inside of the parenthesis. -/
theorem feed_behind_opening {before inside : List Char} {inner : Scan}
    (hfeed : feed none start (before ++ '(' :: inside) = .ok next) (hinside : feed none start inside = .ok inner) :
    ∃ outer, next = inner.within (· + (before.length + 1)) (.parenthesis before.length :: outer) := by
  obtain ⟨point, outer, -, -, hnext⟩ := exists_opening hfeed
  have hinner := feed_within (· + (before.length + 1)) (.parenthesis before.length :: outer) hinside rfl
    fun position => Nat.add_right_comm _ _ _
  exact ⟨outer, Except.ok.inj (hnext.symm.trans hinner)⟩

/-- A move leads out of what encloses a point, or deeper by an opening. -/
theorem Move.enclosing (hmove : Move c scan next) :
    next.enclosing <:+ scan.enclosing ∨ scan.expects = .operand ∧ ∃ opening, Opening.ofChar? c = some opening ∧
      next = ⟨scan.position + 1, opening.enclosure scan.position :: scan.enclosing, .operand⟩ := by
  induction hmove with
  | opening hopening => exact .inr ⟨rfl, _, hopening, rfl⟩
  | numberEnd hpart hread hmove ih =>
    rcases ih with hsuffix | ⟨hexpects, -⟩
    · exact .inl (hsuffix.trans (behindOperand_suffix _))
    · exact absurd hexpects (by simp)
  | closing => exact .inl ((behindOperand_suffix _).trans (List.suffix_cons _ _))
  | _ => exact .inl (List.suffix_refl _)

/-- A move inside of what encloses a point from outside, unless it closes it, is a move of what is read inside. -/
theorem Move.inside {opened : Nat} {outer : List Enclosure} {inner : Scan} (hmove : Move c scan next)
    (hscan : inner.within place (.parenthesis opened :: outer) = scan)
    (hplace : place (inner.position + 1) = place inner.position + 1)
    (hkeep : .parenthesis opened :: outer <:+ next.enclosing) :
    ∃ inside, Move c inner inside ∧ inside.within place (.parenthesis opened :: outer) = next := by
  obtain ⟨position, enclosing, expects⟩ := inner
  induction hmove generalizing enclosing expects with
  | number hpart =>
    obtain ⟨rfl, rfl, hexpects⟩ := Scan.mk.inj hscan
    cases expects <;> cases hexpects
    exact ⟨_, .number hpart, within_next hplace _ _ _⟩
  | operandBlank hblank =>
    obtain ⟨rfl, rfl, hexpects⟩ := Scan.mk.inj hscan
    cases expects <;> cases hexpects
    exact ⟨_, .operandBlank hblank, within_next hplace _ _ _⟩
  | @opening _ _ opening hopening =>
    obtain ⟨rfl, rfl, hexpects⟩ := Scan.mk.inj hscan
    cases expects <;> cases hexpects
    refine ⟨_, .opening hopening, ?_⟩
    rw [within_next hplace]
    cases opening <;> rfl
  | part hpart =>
    obtain ⟨rfl, rfl, hexpects⟩ := Scan.mk.inj hscan
    cases expects <;> cases hexpects
    exact ⟨_, .part hpart, within_next hplace _ _ _⟩
  | numberEnd hpart hread hmove ih =>
    obtain ⟨rfl, rfl, hexpects⟩ := Scan.mk.inj hscan
    cases expects <;> cases hexpects
    obtain ⟨inside, hinside, hnext⟩ := ih hkeep (behindOperand enclosing) .operator
      (by rw [Scan.within, ← behindOperand_within rfl]; rfl) hplace
    exact ⟨inside, .numberEnd hpart hread hinside, hnext⟩
  | operatorBlank hblank =>
    obtain ⟨rfl, rfl, hexpects⟩ := Scan.mk.inj hscan
    cases expects <;> cases hexpects
    exact ⟨_, .operatorBlank hblank, within_next hplace _ _ _⟩
  | operator hoperator =>
    obtain ⟨rfl, rfl, hexpects⟩ := Scan.mk.inj hscan
    cases expects <;> cases hexpects
    exact ⟨_, .operator hoperator, within_next hplace _ _ _⟩
  | closing hclosing =>
    obtain ⟨rfl, henclosing, hexpects⟩ := Scan.mk.inj hscan
    cases expects <;> cases hexpects
    match enclosing with
    | [] =>
      -- the parenthesis that closes would be the one outside, which still encloses the next point
      obtain ⟨-, rfl⟩ := List.cons.inj henclosing
      have hlength := (hkeep.trans (behindOperand_suffix outer)).length_le
      rw [List.length_cons] at hlength
      omega
    | .parenthesis _ :: enclosing =>
      obtain ⟨-, rfl⟩ := List.cons.inj henclosing
      refine ⟨_, .closing hclosing, ?_⟩
      rw [within_next hplace, ← behindOperand_within rfl]
      rfl
    | .sign :: enclosing => exact absurd (List.cons.inj henclosing).1 (by simp [Enclosure.relocate])

/-- Behind every parenthesis that encloses a point a text of its own has been read. -/
theorem exists_inside (hfeed : feed limit start read = .ok scan) (opened : Nat) (outer : List Enclosure)
    (hopened : .parenthesis opened :: outer <:+ scan.enclosing) :
    ∃ before inside inner, read = before ++ '(' :: inside ∧ before.length = opened ∧ feed none start inside = .ok inner ∧
      inner.within (· + (opened + 1)) (.parenthesis opened :: outer) = scan := by
  refine feed_induction limit start
    (fun read scan => .parenthesis opened :: outer <:+ scan.enclosing →
      ∃ before inside inner, read = before ++ '(' :: inside ∧ before.length = opened ∧
        feed none start inside = .ok inner ∧ inner.within (· + (opened + 1)) (.parenthesis opened :: outer) = scan)
    ?_ ?_ _ _ hfeed hopened
  · intro hnil
    exact absurd (List.suffix_nil.1 hnil) (by simp)
  · intro read c point next hpoint _ hmove ih hkeep
    by_cases hbefore : .parenthesis opened :: outer <:+ point.enclosing
    -- it was open already, and the move goes on inside of it
    · obtain ⟨before, inside, inner, rfl, hlength, hinner, hwithin⟩ := ih hbefore
      obtain ⟨further, hfurther, hnext⟩ := hmove.inside hwithin (Nat.add_right_comm _ _ _) hkeep
      refine ⟨before, inside ++ [c], further, by simp, hlength, ?_, hnext⟩
      rw [feed_snoc, hinner, ok_bind, hfurther.step]
    -- the move opens it, and nothing has been read inside of it yet
    · rcases hmove.enclosing with hsuffix | ⟨-, opening, hopening, rfl⟩
      · exact absurd (hkeep.trans hsuffix) hbefore
      obtain ⟨hopened, rfl⟩ := List.cons.inj ((List.suffix_cons_iff.1 hkeep).resolve_right hbefore)
      cases opening with
      | sign negative => exact absurd hopened (by simp [Opening.enclosure])
      | parenthesis =>
        obtain rfl := Enclosure.parenthesis.inj hopened
        obtain rfl := Opening.ofChar?_eq_parenthesis hopening
        have hposition : point.position = read.length := position_of_feed_start hpoint
        exact ⟨read, [], start, rfl, hposition.symm, rfl, within_start _ _⟩

end Scan

end Reckoner
