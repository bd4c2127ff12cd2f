import FlowDoc.Xaml.Event
import Mathlib.Data.List.Chain

/-!
# The grammar of the event stream

A `Phrase` is what a stretch of a stream says: an object with its members, a member with its items, an item. The words
of the grammar are the namespaces followed by the signals of one object in which no collection is empty and no two
values stand side by side (`IsWord`).

Side by side in a word stand only signals that may do so: a collection starts right before an item, and no two values
are neighbours (`isWord_isChain`).
-/

namespace FlowDoc.Xaml

mutual

/-- An object with its members. -/
inductive ObjectPhrase
  | mk (type : ElementType) (members : List MemberPhrase)

/-- A member or a collection with its items. -/
inductive MemberPhrase
  | mk (member : Member) (collection : Bool) (items : List ItemPhrase)

/-- An item of a member. -/
inductive ItemPhrase
  | object (o : ObjectPhrase)
  | value (v : Scalar)

end

/-- The member in which a run keeps its text. -/
def runText : Member := ⟨"Run", "Text", .text, .property, false⟩

/-- The start of a member or a collection. -/
def memberStart (member : Member) (collection : Bool) : Signal :=
  if collection then .startCollection member else .startMember member

/-- The end of a member or a collection. -/
def memberEnd (collection : Bool) : Signal := if collection then .endCollection else .endMember

mutual

/-- The signals of an object. -/
def ObjectPhrase.signals : ObjectPhrase → List Signal
  | .mk type members => .startObject type :: membersSignals members ++ [.endObject]

def membersSignals : List MemberPhrase → List Signal
  | [] => []
  | m :: ms => m.signals ++ membersSignals ms

def MemberPhrase.signals : MemberPhrase → List Signal
  | .mk member collection items => memberStart member collection :: itemsSignals items ++ [memberEnd collection]

def itemsSignals : List ItemPhrase → List Signal
  | [] => []
  | i :: is => i.signals ++ itemsSignals is

def ItemPhrase.signals : ItemPhrase → List Signal
  | .object o => o.signals
  | .value v => [.value v]

end

def ItemPhrase.isValue : ItemPhrase → Bool
  | .object _ => false
  | .value _ => true

/-- Whether no two values stand side by side. -/
def Separated (items : List ItemPhrase) : Prop := items.IsChain fun a b => ¬(a.isValue = true ∧ b.isValue = true)

mutual

/-- Whether no collection in an object is empty, and no two values in it stand side by side. -/
def ObjectPhrase.IsProper : ObjectPhrase → Prop
  | .mk _ members => MembersProper members

def MembersProper : List MemberPhrase → Prop
  | [] => True
  | m :: ms => m.IsProper ∧ MembersProper ms

def MemberPhrase.IsProper : MemberPhrase → Prop
  | .mk _ collection items => (collection = true → items ≠ []) ∧ Separated items ∧ ItemsProper items

def ItemsProper : List ItemPhrase → Prop
  | [] => True
  | i :: is => i.IsProper ∧ ItemsProper is

def ItemPhrase.IsProper : ItemPhrase → Prop
  | .object o => o.IsProper
  | .value _ => True

end

/-- **The grammar of a whole stream**: namespaces, then one object. -/
def IsWord (signals : List Signal) : Prop :=
  ∃ (decls : List NamespaceDecl) (o : ObjectPhrase), o.IsProper ∧ signals = decls.map .namespaceDecl ++ o.signals

/-! ## Lists of phrases -/

@[simp] theorem membersSignals_nil : membersSignals [] = [] := rfl

@[simp] theorem itemsSignals_nil : itemsSignals [] = [] := rfl

@[simp] theorem itemsSignals_singleton (i : ItemPhrase) : itemsSignals [i] = i.signals := by simp [itemsSignals]

@[simp] theorem membersSignals_append (ms ns : List MemberPhrase) :
    membersSignals (ms ++ ns) = membersSignals ms ++ membersSignals ns := by
  induction ms with
  | nil => rfl
  | cons m ms ih => simp [membersSignals, ih]

@[simp] theorem itemsSignals_append (is js : List ItemPhrase) :
    itemsSignals (is ++ js) = itemsSignals is ++ itemsSignals js := by
  induction is with
  | nil => rfl
  | cons i is ih => simp [itemsSignals, ih]

@[simp] theorem membersProper_append (ms ns : List MemberPhrase) :
    MembersProper (ms ++ ns) ↔ MembersProper ms ∧ MembersProper ns := by
  induction ms with
  | nil => simp [MembersProper]
  | cons m ms ih => simp [MembersProper, ih, and_assoc]

@[simp] theorem itemsProper_append (is js : List ItemPhrase) :
    ItemsProper (is ++ js) ↔ ItemsProper is ∧ ItemsProper js := by
  induction is with
  | nil => simp [ItemsProper]
  | cons i is ih => simp [ItemsProper, ih, and_assoc]

/-- An item may follow others if it is no value or they do not end in one. -/
theorem Separated.concat {items : List ItemPhrase} (h : Separated items) {i : ItemPhrase}
    (hi : i.isValue = true → ∀ l ∈ items.getLast?, l.isValue = false) : Separated (items ++ [i]) := by
  refine List.IsChain.append h (List.isChain_singleton i) fun l hl j hj => ?_
  simp only [List.head?_cons, Option.mem_some_iff] at hj
  subst hj
  rintro ⟨hv, hj⟩
  have := hi hj l hl
  simp [this] at hv

/-! ## What may stand side by side -/

namespace Signal

def isValue : Signal → Bool
  | .value _ => true
  | _ => false

def isCollectionStart : Signal → Bool
  | .startCollection _ => true
  | _ => false

/-- Whether an item starts with a signal. -/
def startsItem : Signal → Bool
  | .value _ | .startObject _ => true
  | _ => false

/-- Whether a signal may come right before another: the start of a collection only before an item, a value before no
other value. -/
def MayPrecede (a b : Signal) : Prop :=
  (a.isCollectionStart = true → b.startsItem = true) ∧ ¬(a.isValue = true ∧ b.isValue = true)

end Signal

theorem ItemPhrase.signals_ne_nil (i : ItemPhrase) : i.signals ≠ [] := by
  rcases i with ⟨⟨t, ms⟩⟩ | v <;> simp [ItemPhrase.signals, ObjectPhrase.signals]

/-- An item begins with a value if it is one, and with the start of an object otherwise. -/
theorem ItemPhrase.head_signals (i : ItemPhrase) :
    ∃ s, i.signals.head? = some s ∧ s.startsItem = true ∧ s.isValue = i.isValue := by
  rcases i with ⟨⟨t, ms⟩⟩ | v
  · exact ⟨.startObject t, by simp [ItemPhrase.signals, ObjectPhrase.signals], rfl, rfl⟩
  · exact ⟨.value v, by simp [ItemPhrase.signals], rfl, rfl⟩

/-- An item ends with a value if it is one, and with the end of an object otherwise. -/
theorem ItemPhrase.last_signals (i : ItemPhrase) :
    ∃ s, i.signals.getLast? = some s ∧ s.isCollectionStart = false ∧ s.isValue = i.isValue := by
  rcases i with ⟨⟨t, ms⟩⟩ | v
  · exact ⟨.endObject, by simp [ItemPhrase.signals, ObjectPhrase.signals, List.getLast?_cons], rfl, rfl⟩
  · exact ⟨.value v, by simp [ItemPhrase.signals], rfl, rfl⟩

/-- No list of items ends with the start of a collection. -/
theorem last_itemsSignals (items : List ItemPhrase) :
    ∀ s ∈ (itemsSignals items).getLast?, s.isCollectionStart = false := by
  rcases List.eq_nil_or_concat items with rfl | ⟨is, i, rfl⟩
  · simp
  · obtain ⟨s, hs, hc, -⟩ := i.last_signals
    have hne := i.signals_ne_nil
    intro x hx
    simp only [List.concat_eq_append, itemsSignals_append, itemsSignals_singleton, List.getLast?_append, hs,
      Option.some_or, Option.mem_some_iff] at hx
    rwa [← hx]

theorem head_itemsSignals_cons (i : ItemPhrase) (is : List ItemPhrase) :
    (itemsSignals (i :: is)).head? = i.signals.head? := by
  obtain ⟨s, hs, -⟩ := i.head_signals
  simp [itemsSignals, hs]

theorem last_memberSignals (m : MemberPhrase) : ∃ c, m.signals.getLast? = some (memberEnd c) := by
  rcases m with ⟨member, c, items⟩
  exact ⟨c, by simp [MemberPhrase.signals, List.getLast?_cons]⟩

theorem last_membersSignals (ms : List MemberPhrase) :
    ∀ s ∈ (membersSignals ms).getLast?, ∃ c, s = memberEnd c := by
  rcases List.eq_nil_or_concat ms with rfl | ⟨ms, m, rfl⟩
  · simp
  · obtain ⟨c, hc⟩ := last_memberSignals m
    intro s hs
    simp only [List.concat_eq_append, membersSignals_append, List.getLast?_append, membersSignals, List.append_nil, hc,
      Option.some_or, Option.mem_some_iff] at hs
    exact ⟨c, hs.symm⟩

@[simp] theorem mayPrecede_memberEnd {a : Signal} {c : Bool} :
    a.MayPrecede (memberEnd c) ↔ a.isCollectionStart = false := by
  cases c <;> cases a <;> simp [memberEnd, Signal.MayPrecede, Signal.isCollectionStart, Signal.startsItem, Signal.isValue]

theorem memberEnd_mayPrecede (c : Bool) (b : Signal) : (memberEnd c).MayPrecede b := by
  cases c <;> simp [memberEnd, Signal.MayPrecede, Signal.isCollectionStart, Signal.isValue]

mutual

/-- The signals of a proper object stand side by side as they may. -/
theorem isChain_object : ∀ o : ObjectPhrase, o.IsProper → o.signals.IsChain Signal.MayPrecede
  | .mk type members, h => by
    have inner := isChain_members members h
    have start : (Signal.startObject type :: membersSignals members).IsChain Signal.MayPrecede :=
      inner.cons fun y _ => by simp [Signal.MayPrecede, Signal.isCollectionStart, Signal.isValue]
    refine List.IsChain.append start (List.isChain_singleton _) fun x hx y hy => ?_
    simp only [List.head?_cons, Option.mem_some_iff] at hy
    subst hy
    rcases List.eq_nil_or_concat (membersSignals members) with hn | ⟨l, s, hl⟩
    · rw [hn] at hx
      simp only [List.getLast?_singleton, Option.mem_some_iff] at hx
      subst hx
      simp [Signal.MayPrecede, Signal.isCollectionStart, Signal.isValue]
    · obtain ⟨c, hc⟩ := last_membersSignals members s (by simp [hl])
      have : x = s := by simpa [hl, List.getLast?_cons, eq_comm] using hx
      rw [this, hc]
      exact memberEnd_mayPrecede c _

theorem isChain_members : ∀ ms : List MemberPhrase, MembersProper ms → (membersSignals ms).IsChain Signal.MayPrecede
  | [], _ => List.IsChain.nil
  | m :: ms, h => by
    refine List.IsChain.append (isChain_member m h.1) (isChain_members ms h.2) fun x hx y _ => ?_
    obtain ⟨c, hc⟩ := last_memberSignals m
    simp only [hc, Option.mem_some_iff] at hx
    rw [← hx]
    exact memberEnd_mayPrecede c y

theorem isChain_member : ∀ m : MemberPhrase, m.IsProper → m.signals.IsChain Signal.MayPrecede
  | .mk member collection items, ⟨nonempty, separated, proper⟩ => by
    have inner := isChain_items items separated proper
    have start : (memberStart member collection :: itemsSignals items).IsChain Signal.MayPrecede := by
      refine inner.cons fun y hy => ?_
      cases collection with
      | false => simp [memberStart, Signal.MayPrecede, Signal.isCollectionStart, Signal.isValue]
      | true =>
        obtain ⟨i, is, rfl⟩ := List.exists_cons_of_ne_nil (nonempty rfl)
        obtain ⟨s, hs, starts, -⟩ := i.head_signals
        have : y = s := by simpa [head_itemsSignals_cons, hs, eq_comm] using hy
        simp [memberStart, Signal.MayPrecede, Signal.isValue, this, starts]
    refine List.IsChain.append start (List.isChain_singleton _) fun x hx y hy => ?_
    simp only [List.head?_cons, Option.mem_some_iff] at hy
    subst hy
    rw [mayPrecede_memberEnd]
    rcases List.eq_nil_or_concat (itemsSignals items) with hn | ⟨l, s, hl⟩
    · -- nothing stands between start and end: then this is no collection
      cases collection with
      | false => simp [hn, memberStart] at hx; simp [← hx, Signal.isCollectionStart]
      | true =>
        obtain ⟨i, is, rfl⟩ := List.exists_cons_of_ne_nil (nonempty rfl)
        exact absurd hn (by simp [itemsSignals, i.signals_ne_nil])
    · have : x = s := by simpa [hl, List.getLast?_cons, eq_comm] using hx
      exact last_itemsSignals items x (by simp [hl, this])

theorem isChain_items : ∀ is : List ItemPhrase, Separated is → ItemsProper is →
    (itemsSignals is).IsChain Signal.MayPrecede
  | [], _, _ => List.IsChain.nil
  | i :: is, separated, proper => by
    refine List.IsChain.append (isChain_item i proper.1)
      (isChain_items is (List.IsChain.of_cons separated) proper.2) fun x hx y hy => ?_
    obtain ⟨l, hl, notStart, lv⟩ := i.last_signals
    have hxl : x = l := by simpa [hl, eq_comm] using hx
    subst hxl
    cases is with
    | nil => simp at hy
    | cons j js =>
      obtain ⟨s, hs, -, sv⟩ := j.head_signals
      have hys : y = s := by simpa [head_itemsSignals_cons, hs, eq_comm] using hy
      subst hys
      refine ⟨by simp [notStart], ?_⟩
      rw [lv, sv]
      exact (List.isChain_cons_cons.mp separated).1

theorem isChain_item : ∀ i : ItemPhrase, i.IsProper → i.signals.IsChain Signal.MayPrecede
  | .object o, h => isChain_object o h
  | .value v, _ => List.isChain_singleton (Signal.value v)

end

/-- **Neighbours in a word.** A collection starts right before an item, and no two values stand side by side. -/
theorem isWord_isChain {signals : List Signal} (h : IsWord signals) : signals.IsChain Signal.MayPrecede := by
  obtain ⟨decls, o, ho, rfl⟩ := h
  induction decls with
  | nil => simpa using isChain_object o ho
  | cons d ds ih =>
    rw [List.map_cons, List.cons_append]
    exact ih.cons fun y _ => by simp [Signal.MayPrecede, Signal.isCollectionStart, Signal.isValue]

end FlowDoc.Xaml
