import Reckoner.Proofs.Parser.Runs

/-!
# Progress of the readers

A call that leads back to the reader it is a call of, or into a loop, has consumed a character by then: it leads down the
grammar otherwise, which ends at numbers. So no text is read for ever. With what is known of the runs and of where reading stops,
this says how a call moves the cursor, whether it comes to an end or to a fault.
-/

namespace Reckoner

theorem EndsTerm.not_mem {c : Char} (hends : EndsTerm c) : c ∉ ['*', '/'] := by
  intro hc
  simp only [List.mem_cons, List.not_mem_nil, or_false] at hc
  rcases hc with rfl | rfl
  · exact absurd hends.2 (by decide)
  · exact absurd hends.2 (by decide)

theorem EndsExpression.not_mem {c : Char} (hends : EndsExpression c) : c ∉ ['+', '-', '*', '/'] := by
  intro hc
  rcases List.mem_cons.1 hc with rfl | hc
  · exact absurd hends.2 (by decide)
  · rcases List.mem_cons.1 hc with rfl | hc
    · exact absurd hends.2 (by decide)
    · exact hends.1.not_mem hc

namespace Parser

variable {limit : Option Nat} {start : Cursor} {outer inner call : Call} {after : Cursor}

theorem exists_passes_of_calls (hcalls : Calls limit outer inner) : ∃ passed, outer.start.Passes passed inner.start := by
  obtain ⟨_, _, hruns, -⟩ := call_finishes limit outer
  exact hruns.exists_passes_of_mem hcalls

theorem exists_passes_of_transGen (hcalls : Relation.TransGen (Calls limit) outer inner) :
    ∃ passed, outer.start.Passes passed inner.start := by
  induction hcalls with
  | single hcalls => exact exists_passes_of_calls hcalls
  | tail _ hcalls ih =>
    obtain ⟨passed, hpasses⟩ := ih
    obtain ⟨more, hmore⟩ := exists_passes_of_calls hcalls
    exact ⟨passed ++ more, hpasses.trans hmore⟩

/-- How far above numbers a reader stands in the grammar, and the loops above them all. -/
def Reader.rank : Reader → Nat
  | number => 0
  | factor => 1
  | term => 2
  | expression => 3
  | sums | products => 4

theorem Reader.rank_le_of_isLoop {reader other : Reader} (hloop : reader.isLoop) : other.rank ≤ reader.rank := by
  cases reader with
  | sums | products => cases other <;> decide
  | _ => exact absurd hloop nofun

/-- A call leads to another with less to read, or to one of a reader of lower rank. -/
def Descends (outer inner : Call) : Prop :=
  inner.start.rest.length < outer.start.rest.length ∨
    inner.start.rest.length ≤ outer.start.rest.length ∧ inner.reader.rank < outer.reader.rank

theorem Descends.trans {middle : Call} (hfirst : Descends outer middle) (hothers : Descends middle inner) :
    Descends outer inner := by
  unfold Descends at *
  omega

theorem length_rest_lt_of_loopActions {left : Parsed start} {classify : Char → Option Operator} {operand : Cursor → Call}
    {read : (next : Cursor) → Except Fault (Parsed next)} {loop : Parsed start → Call}
    (hmem : .call inner ∈ loopActions left classify operand read loop) (hoperand : ∀ next, (operand next).start = next)
    (hloop : ∀ parsed, (loop parsed).start = parsed.after) : inner.start.rest.length < left.after.rest.length := by
  obtain ⟨operator, next, hnext, hoperands⟩ := call_mem_loopActions hmem
  rcases call_mem_operandActions hoperands with rfl | ⟨right, -, rfl⟩
  · have htaken := Cursor.length_rest_of_take? hnext
    have hblanks := left.after.length_rest_skip_le Text.isBlank
    rw [hoperand]
    dsimp only [Parsed.skipBlanks] at htaken
    omega
  · rw [hloop]
    exact length_join_lt hnext right

theorem descends_of_calls (hcalls : Calls limit outer inner) : Descends outer inner := by
  cases outer with
  | expression nesting start =>
    rcases call_mem_operandActions hcalls with rfl | ⟨first, -, rfl⟩
    · exact .inr ⟨Nat.le_refl _, Nat.lt_succ_self _⟩
    · exact .inl first.shorter
  | sums nesting left => exact .inl (length_rest_lt_of_loopActions hcalls (fun _ => rfl) fun _ => rfl)
  | term nesting start =>
    rcases call_mem_operandActions hcalls with rfl | ⟨first, -, rfl⟩
    · exact .inr ⟨Nat.le_refl _, Nat.lt_succ_self _⟩
    · exact .inl first.shorter
  | products nesting left => exact .inl (length_rest_lt_of_loopActions hcalls (fun _ => rfl) fun _ => rfl)
  | factor nesting start =>
    obtain ⟨-, rfl⟩ | ⟨opening, next, deeper, hnext, -, hopening⟩ := call_mem_factorActions hcalls
    · exact .inr ⟨start.length_rest_skip_le Text.isBlank, Nat.zero_lt_one⟩
    · have hstart : inner.start = next := by
        obtain ⟨-, rfl⟩ | ⟨_, -, rfl⟩ := hopening
        · rfl
        · rfl
      have htaken := Cursor.length_rest_of_take? hnext
      have hblanks := start.length_rest_skip_le Text.isBlank
      refine .inl ?_
      rw [hstart]
      change next.rest.length < start.rest.length
      omega
  | number start => exact absurd hcalls call_not_mem_consuming

theorem descends_of_transGen (hcalls : Relation.TransGen (Calls limit) outer inner) : Descends outer inner := by
  induction hcalls with
  | single hcalls => exact descends_of_calls hcalls
  | tail _ hcalls ih => exact ih.trans (descends_of_calls hcalls)

/-- A call that leads back to its own reader, or into a loop, has passed a character by then. -/
theorem position_lt_of_transGen (hcalls : Relation.TransGen (Calls limit) outer inner)
    (hreader : inner.reader = outer.reader ∨ inner.reader.isLoop) : outer.start.position < inner.start.position := by
  obtain ⟨passed, hpasses⟩ := exists_passes_of_transGen hcalls
  have hlength := hpasses.length_rest
  have hposition := hpasses.2
  have hshorter : inner.start.rest.length < outer.start.rest.length := by
    rcases descends_of_transGen hcalls with hshorter | ⟨-, hrank⟩
    · exact hshorter
    · rcases hreader with hsame | hloop
      · exact absurd (hsame ▸ hrank) (Nat.lt_irrefl _)
      · exact absurd hrank (Nat.not_lt_of_le (Reader.rank_le_of_isLoop hloop))
  omega

theorem map_after_eq_ok {read : Except Fault (Parsed start)} (hread : read.map Parsed.after = .ok after) :
    ∃ parsed, read = .ok parsed ∧ parsed.after = after := by
  cases read with
  | error fault => exact absurd hread nofun
  | ok parsed => exact ⟨parsed, rfl, Except.ok.inj hread⟩

theorem length_rest_lt_of_result (hresult : call.result limit = .ok after) (hloop : call.reader.isLoop = false) :
    after.rest.length < call.start.rest.length := by
  cases call with
  | sums | products => exact absurd hloop nofun
  | expression | term | factor | number =>
    obtain ⟨parsed, -, rfl⟩ := map_after_eq_ok hresult
    exact parsed.shorter

theorem endsTerm_of_result (hresult : call.result limit = .ok after) (hreader : call.reader = .term) :
    ∀ c ∈ after.rest.head?, EndsTerm c := by
  cases call with
  | term nesting start =>
    obtain ⟨parsed, hread, rfl⟩ := map_after_eq_ok hresult
    exact endsTerm_of_term hread
  | _ => exact absurd hreader nofun

theorem endsExpression_of_result (hresult : call.result limit = .ok after) (hreader : call.reader = .expression) :
    ∀ c ∈ after.rest.head?, EndsExpression c := by
  cases call with
  | expression nesting start =>
    obtain ⟨parsed, hread, rfl⟩ := map_after_eq_ok hresult
    exact endsExpression_of_expression hread
  | _ => exact absurd hreader nofun

/-- A call takes the cursor on, over characters of the text that it consumes once, and leaves it where a fault was found or behind
what it has read. The calls it makes find the cursor no further back, and those that might go on for ever find it further on;
a fault of one of them is its own fault. -/
theorem calls_move_forward (limit : Option Nat) (text : List Char) (call : Call) (hon : call.start.On text) :
    (∃ consumed stop, Runs limit call.start (call.actions limit) consumed stop) ∧
      (∀ consumed stop, Runs limit call.start (call.actions limit) consumed stop →
        stop.On text ∧ stop.rest.head? = text[stop.position]? ∧ call.start.position ≤ stop.position ∧
          consumed = List.range' call.start.position (stop.position - call.start.position) ∧
          (∀ fault, call.result limit = .error fault → fault.LeftAt stop) ∧
          ∀ after, call.result limit = .ok after → after = stop ∧
            (call.reader.isLoop = false → call.start.position < stop.position) ∧
            (call.reader = .term → ∀ c ∈ stop.rest.head?, Text.isBlank c = false ∧ c ∉ ['*', '/']) ∧
            (call.reader = .expression →
              ∀ c ∈ stop.rest.head?, Text.isBlank c = false ∧ c ∉ ['+', '-', '*', '/'])) ∧
      ∀ inner, Relation.TransGen (Calls limit) call inner →
        inner.start.On text ∧ call.start.position ≤ inner.start.position ∧
          (inner.reader = call.reader ∨ inner.reader.isLoop → call.start.position < inner.start.position) ∧
          ∀ fault, inner.result limit = .error fault → call.result limit = .error fault := by
  refine ⟨?_, ?_, ?_⟩
  · obtain ⟨consumed, stop, hruns, -⟩ := call_finishes limit call
    exact ⟨consumed, stop, hruns⟩
  · intro consumed stop hruns
    obtain ⟨passed, hpasses, hconsumed⟩ := hruns.exists_passes
    have hstops := stopsAt_of_runs hruns
    have hstop := hon.of_passes hpasses
    have hposition := hpasses.2
    refine ⟨hstop, hstop.head?_rest, by omega, ?_, ?_, ?_⟩
    · rw [hconsumed, hposition, Nat.add_sub_cancel_left]
    · intro fault hresult
      rw [hresult] at hstops
      exact hstops
    · intro after hresult
      rw [hresult] at hstops
      obtain rfl : after = stop := hstops
      refine ⟨rfl, ?_, ?_, ?_⟩
      · intro hloop
        have hshorter := length_rest_lt_of_result hresult hloop
        have hlength := hpasses.length_rest
        omega
      · intro hreader c hc
        have hends := endsTerm_of_result hresult hreader c hc
        exact ⟨hends.1, hends.not_mem⟩
      · intro hreader c hc
        have hends := endsExpression_of_result hresult hreader c hc
        exact ⟨hends.1.1, hends.not_mem⟩
  · intro inner hcalls
    obtain ⟨passed, hpasses⟩ := exists_passes_of_transGen hcalls
    have hposition := hpasses.2
    exact ⟨hon.of_passes hpasses, by omega, position_lt_of_transGen hcalls, fun _ => result_eq_error_of_transGen hcalls⟩

/-- A term that ends before a sign, and an operand behind it that ends in the middle of its parenthesis. -/
theorem calls_move_forward_term_factor :
    (∃ stop, Runs (some 1000) ⟨0, "2 * 3 -(4*x".toList⟩ ((Call.term 0 ⟨0, "2 * 3 -(4*x".toList⟩).actions (some 1000))
      [0, 1, 2, 3, 4, 5] stop ∧ stop = ⟨6, "-(4*x".toList⟩) ∧
    ∃ stop, Runs (some 1000) ⟨6, "-(4*x".toList⟩ ((Call.factor 0 ⟨6, "-(4*x".toList⟩).actions (some 1000))
      [6, 7, 8, 9] stop ∧ stop = ⟨10, ['x']⟩ := by
  constructor
  · obtain ⟨⟨consumed, stop, hruns⟩, hall, -⟩ := calls_move_forward (some 1000) "2 * 3 -(4*x".toList
      (.term 0 ⟨0, "2 * 3 -(4*x".toList⟩) ⟨by decide, rfl⟩
    obtain ⟨-, -, -, hconsumed, -, hreturns⟩ := hall consumed stop hruns
    obtain ⟨rfl, -⟩ := hreturns ⟨6, "-(4*x".toList⟩ (by with_unfolding_all rfl)
    rw [show consumed = [0, 1, 2, 3, 4, 5] from hconsumed] at hruns
    exact ⟨_, hruns, rfl⟩
  · obtain ⟨⟨consumed, stop, hruns⟩, hall, -⟩ := calls_move_forward (some 1000) "2 * 3 -(4*x".toList
      (.factor 0 ⟨6, "-(4*x".toList⟩) ⟨by decide, rfl⟩
    obtain ⟨hon, -, -, hconsumed, hfails, -⟩ := hall consumed stop hruns
    obtain ⟨hposition, -⟩ := hfails (.unexpected 10 'x') (by with_unfolding_all rfl)
    have hten : stop.position = 10 := hposition.symm
    have hrest : stop.rest = ['x'] := by rw [hon.rest_eq, hten]; rfl
    rw [hten] at hconsumed
    rw [show consumed = [6, 7, 8, 9] from hconsumed] at hruns
    obtain ⟨position, rest⟩ := stop
    obtain rfl : position = 10 := hten
    obtain rfl : rest = ['x'] := hrest
    exact ⟨_, hruns, rfl⟩

end Parser

end Reckoner
