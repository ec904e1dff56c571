import Literate.Validation.Check
import Mathlib.Data.List.Forall2

namespace Literate.Checked

variable {α β : Type} {a : α} {v : Value} {fields : Fields} {name : Text}
  {check : Value → Checked α}

@[simp] theorem fail_ne_ok (cause : Issue.Cause) : (fail cause : Checked α) ≠ .ok a := by
  simp [fail]

theorem bind_eq_ok_iff {x : Checked α} {f : α → Checked β} {b : β} :
    x >>= f = .ok b ↔ ∃ a, x = .ok a ∧ f a = .ok b := by
  cases x with
  | error e => simp [bind, Except.bind]
  | ok a => simp [bind, Except.bind]

theorem map_eq_ok_iff {ε : Type} {x : Except ε α} {f : α → β} {b : β} :
    x.map f = .ok b ↔ ∃ a, x = .ok a ∧ f a = b := by
  cases x with
  | error e => simp [Except.map]
  | ok a => simp [Except.map]

@[simp] theorem inside_eq_ok_iff {place : Place} {x : Checked α} :
    inside place x = .ok a ↔ x = .ok a := by
  cases x with
  | error e => simp [inside, Except.mapError]
  | ok b => simp [inside, Except.mapError]

theorem both_eq_ok_iff {x : Checked α} {y : Checked β} {p : α × β} :
    both x y = .ok p ↔ x = .ok p.1 ∧ y = .ok p.2 := by
  obtain ⟨a, b⟩ := p
  cases x <;> cases y <;> simp [both]

theorem items_eq_ok_iff {i : Nat} {vs : List Value} {as : List α} :
    items check i vs = .ok as ↔ List.Forall₂ (fun v a => check v = .ok a) vs as := by
  induction vs generalizing i as with
  | nil => simp [items, eq_comm]
  | cons v vs ih =>
    rw [items, cons, map_eq_ok_iff]
    simp only [both_eq_ok_iff, inside_eq_ok_iff, ih, List.forall₂_cons_left_iff]
    constructor
    · rintro ⟨⟨a, as'⟩, ⟨ha, has⟩, rfl⟩
      exact ⟨a, as', ha, has, rfl⟩
    · rintro ⟨a, as', ha, has, rfl⟩
      exact ⟨(a, as'), ⟨ha, has⟩, rfl⟩

theorem bounded_eq_ok_iff {x : Checked α} {above below : α → Prop} [DecidablePred above]
    [DecidablePred below] {high low : Issue.Cause} {f : α → β} {b : β} :
    (x >>= fun a => if above a then fail high else if below a then fail low else .ok (f a)) =
        .ok b ↔ ∃ a, x = .ok a ∧ ¬ above a ∧ ¬ below a ∧ f a = b := by
  rw [bind_eq_ok_iff]
  refine exists_congr fun a => and_congr_right fun _ => ?_
  by_cases habove : above a
  · simp [habove]
  · by_cases hbelow : below a
    · simp [habove, hbelow]
    · simp [habove, hbelow]

theorem record_eq_ok_iff : record name v = .ok fields ↔ v = .object fields := by
  cases v <;> simp [record]

theorem required_eq_ok_iff :
    required fields name check = .ok a ↔
      ∃ v, Fields.get? fields name = some v ∧ check v = .ok a := by
  rw [required, inside_eq_ok_iff]
  cases Fields.get? fields name <;> simp

theorem optional_eq_ok_iff {default : α} :
    optional fields name default check = .ok a ↔
      (∃ v, Fields.get? fields name = some v ∧ check v = .ok a) ∨
        Fields.get? fields name = none ∧ a = default := by
  rw [optional]
  cases Fields.get? fields name with
  | none => simp [eq_comm]
  | some v => simp

theorem kind_eq_ok_iff {expected : Text} {u : Unit} :
    kind expected fields = .ok u ↔
      Fields.get? fields "kind" = some (.text expected) ∨ Fields.get? fields "kind" = none := by
  rw [kind, optional]
  cases Fields.get? fields "kind" with
  | none => simp
  | some v =>
    cases v with
    | text s => by_cases h : s = expected <;> simp [h]
    | _ => simp

theorem tagged_eq_ok_iff {alternatives : List (Text × (Value → Checked α))} :
    tagged alternatives v = .ok a ↔
      ∃ fields kind check, v = .object fields ∧
        Fields.get? fields "kind" = some (.text kind) ∧
        alternatives.lookup kind = some check ∧ check v = .ok a := by
  constructor
  · intro h
    cases v with
    | object fields =>
      rw [tagged] at h
      split at h
      · simp at h
      · next tag hkind =>
        dsimp only at h
        split at h
        · next kind =>
          split at h
          · next check hcheck => exact ⟨fields, kind, check, rfl, hkind, hcheck, by simpa using h⟩
          · simp at h
        · simp at h
    | _ => simp [tagged] at h
  · rintro ⟨fields, kind, check, rfl, hkind, hcheck, h⟩
    simp only [tagged, hkind, hcheck, inside_eq_ok_iff, h]

theorem tagged_pair_eq_ok_iff {k k' : Text} {check check' : Value → Checked α} (hne : k ≠ k') :
    tagged [(k, check), (k', check')] v = .ok a ↔
      ∃ fields, v = .object fields ∧
        (Fields.get? fields "kind" = some (.text k) ∧ check v = .ok a ∨
          Fields.get? fields "kind" = some (.text k') ∧ check' v = .ok a) := by
  rw [tagged_eq_ok_iff]
  constructor
  · rintro ⟨fields, kind, c, rfl, hkind, hc, h⟩
    obtain ⟨earlier, later, hsplit, -⟩ := List.lookup_eq_some_iff.1 hc
    have hmem : (kind, c) ∈ [(k, check), (k', check')] := by simp [hsplit]
    rcases List.mem_pair.1 hmem with heq | heq
    · cases heq
      exact ⟨fields, rfl, .inl ⟨hkind, h⟩⟩
    · cases heq
      exact ⟨fields, rfl, .inr ⟨hkind, h⟩⟩
  · rintro ⟨fields, rfl, ⟨hkind, h⟩ | ⟨hkind, h⟩⟩
    · exact ⟨fields, k, check, rfl, hkind, by simp, h⟩
    · have hother : (k' == k) = false := beq_false_of_ne hne.symm
      exact ⟨fields, k', check', rfl, hkind, by simp [List.lookup_cons, hother], h⟩

theorem text_eq_ok_iff {s : Text} : text v = .ok s ↔ v = .text s := by
  cases v <;> simp [text]

theorem text_bind_eq_ok_iff {f : Text → Checked α} :
    text v >>= f = .ok a ↔ ∃ s, v = .text s ∧ f s = .ok a := by
  simp only [bind_eq_ok_iff, text_eq_ok_iff]

theorem textOf_eq_ok_iff {least : Nat} {most : Option Nat} {s : Text} :
    textOf least most v = .ok s ↔
      v = .text s ∧ least ≤ s.length ∧ ∀ n ∈ most, s.length ≤ n := by
  rw [textOf, text_bind_eq_ok_iff]
  constructor
  · rintro ⟨t, rfl, h⟩
    split_ifs at h with hshort
    · simp at h
    · cases most with
      | none =>
        cases h
        exact ⟨rfl, Nat.not_lt.1 hshort, by simp⟩
      | some n =>
        dsimp only at h
        split_ifs at h with hlong
        · simp at h
        · cases h
          exact ⟨rfl, Nat.not_lt.1 hshort, by simpa using hlong⟩
  · rintro ⟨rfl, hleast, hmost⟩
    refine ⟨s, rfl, ?_⟩
    rw [if_neg (Nat.not_lt.2 hleast)]
    cases most with
    | none => rfl
    | some n =>
      have hlong : ¬ n < s.length := Nat.not_lt.2 (hmost n rfl)
      simp [hlong]

theorem natFrom_eq_ok_iff {least : Nat} {n : { n : Nat // least ≤ n }} :
    natFrom least v = .ok n ↔ integer v = .ok (n.val : Int) := by
  obtain ⟨n, hn⟩ := n
  rw [natFrom, bind_eq_ok_iff]
  constructor
  · rintro ⟨i, hi, h⟩
    split_ifs at h with hle
    · rw [Except.ok.injEq, Subtype.mk.injEq] at h
      have hnat : i = n := by omega
      rw [hi, hnat]
    · simp at h
  · intro hi
    have hle : (least : Int) ≤ n := by omega
    exact ⟨n, hi, by simp [hle]⟩

end Literate.Checked
