import FlowDoc.Xaml.Recorder
import Mathlib.Algebra.Group.Nat.Defs

/-!
# What a recorder counts

A recorder may be called in any order, and after refusals too. It counts the depth of all calls but keeps the accepted
ones alone, so a record has a depth of its own: that of the count until a call is refused, and from then on one level
more for each time that the count comes back to zero from below (`Recording.Counts`). No start of a record falls below
zero.

A recorder that refused nothing finishes exactly with the balanced records. After a refusal it finishes with no balanced
record, be it that the refused end is still counted (**`ofCalls_isCounted`**, `refused_end_unbalances`). This is said of
fewer than `2 ^ 31` calls, whose count 32 bits hold.
-/

namespace FlowDoc.Xaml

/-! ## Depths -/

/-- No event changes the depth by more than one level. -/
theorem Event.depthChange_bounds (e : Event) : -1 ≤ e.depthChange ∧ e.depthChange ≤ 1 := by
  cases e <;> simp [Event.depthChange]

/-- By how much events change the depth in all. -/
def totalChange : List Event → Int
  | [] => 0
  | e :: es => e.depthChange + totalChange es

/-- The total of all changes is at most their number, up or down. -/
theorem totalChange_bounds (es : List Event) : -es.length ≤ totalChange es ∧ totalChange es ≤ es.length := by
  induction es with
  | nil => decide
  | cons e es ih =>
    have one := e.depthChange_bounds
    rw [totalChange, List.length_cons]
    omega

/-- 32 bits hold the total of fewer than `2 ^ 31` changes. -/
theorem toInt_totalChange {es : List Event} (few : es.length < 2 ^ 31) :
    (Int32.ofInt (totalChange es)).toInt = totalChange es := by
  have bounds := totalChange_bounds es
  exact Int32.toInt_ofInt_of_le (by omega) (by omega)

/-- A depth that is found is the total of all changes, and not below zero. -/
theorem depthAfter?_eq_some {depth depth' : Int} {es : List Event} (hd : 0 ≤ depth)
    (h : depthAfter? depth es = some depth') : depth' = depth + totalChange es ∧ 0 ≤ depth' := by
  induction es generalizing depth with
  | nil =>
    simp only [depthAfter?, Option.some.injEq] at h
    exact ⟨by simp [totalChange, h], h ▸ hd⟩
  | cons e es ih =>
    rw [depthAfter?] at h
    split at h
    · cases h
    · next below =>
      obtain ⟨total, nonneg⟩ := ih (by omega) h
      exact ⟨by rw [totalChange]; omega, nonneg⟩

/-- No start of a record that has a depth falls below zero. -/
theorem totalChange_nonneg {depth : Int} {es fs : List Event} (h : depthAfter? 0 fs = some depth) (hp : es <+: fs) :
    0 ≤ totalChange es := by
  obtain ⟨rest, rfl⟩ := hp
  rw [depthAfter?_append] at h
  cases he : depthAfter? 0 es with
  | none => rw [he] at h; cases h
  | some here =>
    obtain ⟨total, nonneg⟩ := depthAfter?_eq_some (Int.le_refl 0) he
    omega

/-- One more event at the end of a record. -/
theorem depthAfter?_concat {depth : Int} {es : List Event} (h : depthAfter? 0 es = some depth) {e : Event}
    (he : 0 ≤ depth + e.depthChange) : depthAfter? 0 (es ++ [e]) = some (depth + e.depthChange) := by
  have up : ¬ depth + e.depthChange < 0 := by omega
  simp [depthAfter?_append, h, depthAfter?, up]

/-! ## Calls -/

/-- A recorder after the calls made on it, which it accepted or refused. -/
structure Recording where
  recorder : Recorder := {}
  accepted : List Signal := []
  refused : List Signal := []

namespace Recording

/-- One more call. -/
def call (c : Recording) (s : Signal) : Recording :=
  match c.recorder.receive s with
  | (r, .ok ()) => { c with recorder := r, accepted := c.accepted ++ [s] }
  | (r, .error _) => { c with recorder := r, refused := c.refused ++ [s] }

/-- Calls one after the other, whether or not they are refused. -/
def ofCalls (signals : List Signal) : Recording := signals.foldl call {}

variable {c : Recording} {s : Signal}

/-- A call is refused if the count falls below zero, and stays counted. -/
theorem receive_refused {r : Recorder} (h : r.depth + (Event.ofSignal s).depthChange < 0) :
    r.receive s = ({ r with depth := r.depth + (Event.ofSignal s).depthChange },
      .error (.protocol (Event.ofSignal s).operation .endWithoutStart)) := by
  simp [Recorder.receive, Recorder.record, h]

theorem receive_accepted {r : Recorder} (h : ¬ r.depth + (Event.ofSignal s).depthChange < 0) :
    r.receive s = (⟨r.events.push (Event.ofSignal s), r.depth + (Event.ofSignal s).depthChange⟩, .ok ()) := by
  simp [Recorder.receive, Recorder.record, h]

theorem call_refused (h : c.recorder.depth + (Event.ofSignal s).depthChange < 0) :
    c.call s = ⟨{ c.recorder with depth := c.recorder.depth + (Event.ofSignal s).depthChange }, c.accepted,
      c.refused ++ [s]⟩ := by
  simp only [call, receive_refused h]

theorem call_accepted (h : ¬ c.recorder.depth + (Event.ofSignal s).depthChange < 0) :
    c.call s = ⟨⟨c.recorder.events.push (Event.ofSignal s), c.recorder.depth + (Event.ofSignal s).depthChange⟩,
      c.accepted ++ [s], c.refused⟩ := by
  simp only [call, receive_accepted h]

/-- The invariant of calls: the depth of the record is the counted one, or zero where that is negative, and `returns`
levels more. The count is below zero or has come back from there exactly if a call was refused. -/
structure Counts (c : Recording) (returns : Nat) : Prop where
  events : c.recorder.events.toList = c.accepted.map Event.ofSignal
  depth : depthAfter? 0 c.recorder.events.toList = some (max c.recorder.depth 0 + returns)
  refused : c.refused = [] ↔ 0 ≤ c.recorder.depth ∧ returns = 0

theorem counts_start : Counts {} 0 := ⟨rfl, rfl, by simp⟩

/-- **One call** keeps the invariant. -/
theorem Counts.call {returns : Nat} (h : c.Counts returns) (s : Signal) : ∃ returns', (c.call s).Counts returns' := by
  obtain ⟨events, depth, refused⟩ := h
  have change := (Event.ofSignal s).depthChange_bounds
  by_cases below : c.recorder.depth + (Event.ofSignal s).depthChange < 0
  · -- the count is zero at most, so the record is as deep as before
    have same : max (c.recorder.depth + (Event.ofSignal s).depthChange) 0 = max c.recorder.depth 0 := by omega
    refine ⟨returns, ?_⟩
    rw [call_refused below]
    refine ⟨events, by simpa [same] using depth, iff_of_false (by simp) fun h => ?_⟩
    have nonneg := h.1
    dsimp only at nonneg
    omega
  · have recorded := depthAfter?_concat depth (e := Event.ofSignal s) (by omega)
    rw [call_accepted below]
    by_cases back : c.recorder.depth < 0
    · have deeper : max c.recorder.depth 0 + returns + (Event.ofSignal s).depthChange =
          max (c.recorder.depth + (Event.ofSignal s).depthChange) 0 + (returns + 1 : Nat) := by omega
      refine ⟨returns + 1, by simp [events], by simp [recorded, deeper], ?_⟩
      rw [refused]
      dsimp only
      omega
    · have deeper : max c.recorder.depth 0 + returns + (Event.ofSignal s).depthChange =
          max (c.recorder.depth + (Event.ofSignal s).depthChange) 0 + returns := by omega
      refine ⟨returns, by simp [events], by simp [recorded, deeper], ?_⟩
      rw [refused]
      dsimp only
      omega

/-- Many calls keep the invariant, and all are counted. -/
theorem Counts.calls {returns : Nat} (h : c.Counts returns) (signals : List Signal) :
    (∃ returns', (signals.foldl Recording.call c).Counts returns') ∧
      (signals.foldl Recording.call c).recorder.depth =
        c.recorder.depth + totalChange (signals.map Event.ofSignal) := by
  induction signals generalizing c returns with
  | nil => exact ⟨⟨returns, h⟩, by simp [totalChange]⟩
  | cons s ss ih =>
    obtain ⟨_, h'⟩ := h.call s
    obtain ⟨kept, counted⟩ := ih h'
    refine ⟨kept, ?_⟩
    have one : (c.call s).recorder.depth = c.recorder.depth + (Event.ofSignal s).depthChange := by
      by_cases below : c.recorder.depth + (Event.ofSignal s).depthChange < 0
      · rw [call_refused below]
      · rw [call_accepted below]
    rw [List.foldl_cons, counted, one]
    simp [totalChange, Int.add_assoc]

/-- **That a recorder counts** the calls made on it, and keeps the accepted ones. -/
structure IsCounted (c : Recording) (signals : List Signal) : Prop where
  /-- All calls are counted. -/
  depth : c.recorder.depth = totalChange (signals.map Event.ofSignal)
  /-- At no time is the count too large for 32 bits. -/
  fits : ∀ {es : List Event}, es <+: signals.map Event.ofSignal →
    (Int32.ofInt (totalChange es)).toInt = totalChange es
  /-- The accepted calls alone are recorded. -/
  events : c.recorder.events.toList = c.accepted.map Event.ofSignal
  /-- A refused call leaves the record, but it is counted. -/
  refusal : ∀ {s : Signal} {r : Recorder} {e : RenderError}, c.recorder.receive s = (r, .error e) →
    r.events = c.recorder.events ∧ r.depth = c.recorder.depth + (Event.ofSignal s).depthChange
  /-- No start of the record falls below zero. -/
  nested : ∀ {es : List Event}, es <+: c.recorder.events.toList → 0 ≤ totalChange es
  /-- The recorder gives nothing but the record. -/
  result : ∀ {es : List Event}, c.recorder.finish = .ok es → es = c.recorder.events.toList
  /-- If nothing was refused, the recorder finishes exactly with a balanced record. -/
  balanced : c.refused = [] → ((∃ es, c.recorder.finish = .ok es) ↔ isBalanced c.recorder.events.toList = true)
  /-- After a refusal it never finishes with one. -/
  unbalanced : c.refused ≠ [] → (∃ es, c.recorder.finish = .ok es) → isBalanced c.recorder.events.toList = false

theorem finish_eq_ok {r : Recorder} {es : List Event} : r.finish = .ok es ↔ r.depth = 0 ∧ r.events.toList = es := by
  by_cases h : r.depth = 0 <;> simp [Recorder.finish, h]

theorem Counts.isBalanced {returns : Nat} (h : c.Counts returns) :
    isBalanced c.recorder.events.toList = true ↔ c.recorder.depth ≤ 0 ∧ returns = 0 := by
  rw [Xaml.isBalanced, h.depth]
  simp only [beq_iff_eq, Option.some.injEq]
  omega

/-- **A recorder under any calls**, as long as they are fewer than `2 ^ 31`. -/
theorem ofCalls_isCounted {signals : List Signal} (few : signals.length < 2 ^ 31) :
    (ofCalls signals).IsCounted signals := by
  obtain ⟨⟨returns, h⟩, counted⟩ := counts_start.calls signals
  change (ofCalls signals).Counts returns at h
  change (ofCalls signals).recorder.depth = 0 + _ at counted
  constructor
  case depth => rw [counted, Int.zero_add]
  case fits =>
    intro es start
    have shorter := start.length_le
    rw [List.length_map] at shorter
    exact toInt_totalChange (by omega)
  case events => exact h.events
  case refusal =>
    intro s r e refused
    by_cases below : (ofCalls signals).recorder.depth + (Event.ofSignal s).depthChange < 0
    · cases (receive_refused below).symm.trans refused
      exact ⟨rfl, rfl⟩
    · cases (receive_accepted below).symm.trans refused
  case nested => exact fun hp => totalChange_nonneg h.depth hp
  case result => exact fun finished => (finish_eq_ok.mp finished).2.symm
  case balanced =>
    intro none
    obtain ⟨nonneg, rfl⟩ := h.refused.mp none
    simp only [finish_eq_ok, h.isBalanced, exists_and_left, exists_eq', and_true]
    omega
  case unbalanced =>
    rintro some ⟨es, finished⟩
    have zero := (finish_eq_ok.mp finished).1
    rw [Bool.eq_false_iff, ne_eq, h.isBalanced]
    exact fun ⟨_, hr⟩ => some (h.refused.mpr ⟨by omega, hr⟩)

/-- A start after an end that was refused. -/
theorem ofCalls_isCounted_refusedEnd :
    ([.endObject, .startObject .paragraph] : List Signal).length < 2 ^ 31 ∧
      (ofCalls [.endObject, .startObject .paragraph]).recorder.depth = 0 ∧
      isBalanced (ofCalls [.endObject, .startObject .paragraph]).recorder.events.toList = false := by
  have counted : (ofCalls [.endObject, .startObject .paragraph]).IsCounted _ := ofCalls_isCounted (by decide)
  exact ⟨by decide, counted.depth, counted.unbalanced (by decide) ⟨_, rfl⟩⟩

/-- An end is refused but counted, so that a start after it is recorded at depth zero: the recorder finishes, with a
record that is not balanced. -/
theorem refused_end_unbalances :
    (ofCalls [.endObject]).refused = [.endObject] ∧ (ofCalls [.endObject]).recorder.depth = -1 ∧
    (ofCalls [.endObject, .startObject .paragraph]).recorder.finish = .ok [.startObject "Paragraph"] ∧
    isBalanced [.startObject "Paragraph"] = false :=
  ⟨rfl, rfl, rfl, rfl⟩

end Recording

end FlowDoc.Xaml
