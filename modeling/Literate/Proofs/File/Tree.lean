import Literate.File.Tree
import Mathlib.Data.List.Basic

namespace Literate

namespace Path

theorem follow_append {place : List Text} (h : ['.', '.'] ∉ place) (passed rest : List Text) :
    follow passed (place ++ rest) = follow (place.reverse ++ passed) rest := by
  induction place generalizing passed with
  | nil => rfl
  | cons p ps ih =>
    rw [List.mem_cons, not_or] at h
    have hp : p ≠ ['.', '.'] := Ne.symm h.1
    have := ih h.2 (p :: passed)
    simpa [follow, hp] using this

end Path

namespace Tree

theorem lookup_replace (l : List (List Text × Node)) (place q : List Text) (n : Node) :
    (l.map fun e => if e.1 = place then (place, n) else e).lookup q =
      if q = place then (if l.any (·.1 == place) then some n else none) else l.lookup q := by
  induction l with
  | nil => simp
  | cons e l ih =>
    obtain ⟨k, m⟩ := e
    rw [List.map_cons]
    by_cases hk : k = place
    · subst hk
      by_cases hq : q = k
      · simp [hq]
      · have hb : (q == k) = false := by simpa using hq
        simp [List.lookup_cons, hb, ih, hq]
    · by_cases hq : q = k
      · subst hq
        simp [hk]
      · have hb : (q == k) = false := by simpa using hq
        have hkp : (k == place) = false := by simpa using hk
        rw [List.any_cons, if_neg hk, List.lookup_cons, hb, List.lookup_cons, hb, hkp,
          Bool.false_or]
        exact ih

theorem get?_put {t : Tree} {place : List Text} (h : place ≠ []) (n : Node) (q : List Text) :
    (t.put place n).get? q = if q = place then some n else t.get? q := by
  by_cases hq : q = []
  · subst hq
    simp [get?, Ne.symm h]
  · unfold put get?
    rw [if_neg hq, if_neg hq]
    by_cases ha : t.entries.any (·.1 == place) = true
    · rw [if_pos ha, lookup_replace, if_pos ha]
    · rw [if_neg ha, List.lookup_append]
      by_cases hp : q = place
      · subst hp
        have hn : t.entries.lookup q = none := by
          rw [List.lookup_eq_none_iff]
          intro e he
          rw [bne_iff_ne]
          intro hk
          exact ha (List.any_eq_true.mpr ⟨e, he, beq_iff_eq.mpr hk.symm⟩)
        simp [hn]
      · have hb : (q == place) = false := by simpa using hp
        simp [List.lookup_cons, hb, hp]

/-- The same places are folders in both trees. -/
def SameFolders (t t' : Tree) : Prop := ∀ q, t'.isFolder q = t.isFolder q

theorem SameFolders.refl (t : Tree) : SameFolders t t := fun _ => rfl

theorem SameFolders.trans {t t' t'' : Tree} (h : SameFolders t t') (h' : SameFolders t' t'') :
    SameFolders t t'' := fun q => (h' q).trans (h q)

theorem isFolder_nil (t : Tree) : t.isFolder [] = true := by simp [isFolder, get?]

theorem ne_nil_of_not_isFolder {t : Tree} {place : List Text} (h : t.isFolder place = false) :
    place ≠ [] := by
  rintro rfl
  simp [isFolder_nil] at h

theorem sameFolders_put {t : Tree} {place : List Text} (h : t.isFolder place = false)
    (bytes : Bytes) (m : Number) : SameFolders t (t.put place (.file bytes m)) := by
  intro q
  by_cases hq : q = place
  · rw [hq, h]
    simp [isFolder, get?_put (ne_nil_of_not_isFolder h)]
  · simp [isFolder, get?_put (ne_nil_of_not_isFolder h), hq]

theorem walk_cons_eq_ok {t : Tree} {here place : List Text} {p : Text} {ps : List Text}
    (h : t.walk here (p :: ps) = .ok place) :
    t.isFolder here = true ∧
      t.walk (if p = ['.', '.'] then here.dropLast else here ++ [p]) ps = .ok place := by
  rw [walk] at h
  split at h
  · exact ⟨‹_›, h⟩
  · split at h <;> cases h

theorem walk_sameFolders {t t' : Tree} (hf : SameFolders t t') {here place ps : List Text}
    (h : t.walk here ps = .ok place) : t'.walk here ps = .ok place := by
  induction ps generalizing here with
  | nil => exact h
  | cons p ps ih =>
    obtain ⟨hhere, hrest⟩ := walk_cons_eq_ok h
    rw [walk, if_pos ((hf here).trans hhere)]
    exact ih hrest

theorem eq_follow_of_walk {t : Tree} {here place ps : List Text}
    (h : t.walk here ps = .ok place) : place = Path.follow here.reverse ps := by
  induction ps generalizing here with
  | nil =>
    have hp : here = place := by simpa [walk] using h
    simp [Path.follow, hp]
  | cons p ps ih =>
    have hrest := ih (walk_cons_eq_ok h).2
    by_cases hp : p = ['.', '.']
    · simpa [Path.follow, hp, List.tail_reverse] using hrest
    · simpa [Path.follow, hp] using hrest

theorem locate_eq_ok {t : Tree} {cwd place : List Text} {p : Path} :
    t.locate cwd p = .ok place ↔
      t.walk (if p.slashes = 0 then cwd else []) p.parts = .ok place := by
  simp only [locate]
  cases hw : t.walk (if p.slashes = 0 then cwd else []) p.parts <;> simp [Except.mapError]

theorem locate_sameFolders {t t' : Tree} (hf : SameFolders t t') {cwd place : List Text}
    {p : Path} (h : t.locate cwd p = .ok place) : t'.locate cwd p = .ok place :=
  locate_eq_ok.mpr (walk_sameFolders hf (locate_eq_ok.mp h))

/-- Following a path through the folders ends where it resolves to without looking at them. -/
theorem eq_resolve_of_locate {t : Tree} {cwd place : List Text} {p : Path}
    (hcwd : ['.', '.'] ∉ cwd) (h : t.locate cwd p = .ok place) : place = p.resolve cwd := by
  have hw := eq_follow_of_walk (locate_eq_ok.mp h)
  unfold Path.resolve
  by_cases hs : p.slashes = 0
  · rw [if_pos hs] at hw
    rw [if_pos hs, Path.follow_append hcwd, List.append_nil]
    exact hw
  · rw [if_neg hs] at hw
    rw [if_neg hs]
    exact hw

theorem read_eq_ok {t : Tree} {cwd : List Text} {p : Path} {bytes : Bytes} :
    t.read cwd p = .ok bytes ↔
      ∃ place m, t.locate cwd p = .ok place ∧ t.get? place = some (.file bytes m) := by
  simp only [read, node, bind, Except.bind]
  cases hl : t.locate cwd p with
  | error f => simp
  | ok place =>
    rcases hg : t.get? place with _ | ⟨b, m⟩ | m <;> simp [hg]

theorem write_eq_ok {t t' : Tree} {cwd : List Text} {p : Path} {bytes : Bytes} {now : Number} :
    t.write cwd p bytes now = .ok t' ↔
      ∃ place, t.locate cwd p = .ok place ∧ t.isFolder place = false ∧
        t' = t.put place (.file bytes now) := by
  simp only [write, bind, Except.bind]
  cases hl : t.locate cwd p with
  | error f => simp
  | ok place =>
    rcases hg : t.get? place with _ | ⟨b, m⟩ | m <;> simp [hg, isFolder, @eq_comm _ t']

theorem ofSystem_of_locate {t : Tree} {cwd : List Text} {p : Path} {f : PathFault}
    (h : t.locate cwd p = .error f) : f.ofSystem = true := by
  have hwalk : ∀ (ps here : List Text) (problem : PathProblem),
      t.walk here ps = .error problem → problem = .notDirectory ∨ problem = .notFound := by
    intro ps
    induction ps with
    | nil => exact nofun
    | cons p ps ih =>
      intro here problem hproblem
      rw [walk] at hproblem
      split at hproblem
      · exact ih _ problem hproblem
      · split at hproblem
        · exact .inl (Except.error.inj hproblem).symm
        · exact .inr (Except.error.inj hproblem).symm
  simp only [locate] at h
  cases hw : t.walk (if p.slashes = 0 then cwd else []) p.parts with
  | ok place => simp [hw, Except.mapError] at h
  | error problem =>
    rw [hw] at h
    obtain rfl := Except.error.inj h
    rcases hwalk _ _ problem hw with rfl | rfl
    · rfl
    · rfl

theorem ofSystem_of_read {t : Tree} {cwd : List Text} {p : Path} {f : PathFault}
    (h : t.read cwd p = .error f) : f.ofSystem = true := by
  simp only [read, node, bind, Except.bind] at h
  cases hl : t.locate cwd p with
  | error g =>
    rw [hl] at h
    obtain rfl : g = f := Except.error.inj h
    exact ofSystem_of_locate hl
  | ok place =>
    rw [hl] at h
    rcases hg : t.get? place with _ | ⟨b, m⟩ | m
    all_goals simp only [hg] at h
    · exact congrArg PathFault.ofSystem (Except.error.inj h).symm
    · cases h
    · exact congrArg PathFault.ofSystem (Except.error.inj h).symm

theorem ofSystem_of_write {t : Tree} {cwd : List Text} {p : Path} {bytes : Bytes} {now : Number}
    {f : PathFault} (h : t.write cwd p bytes now = .error f) : f.ofSystem = true := by
  simp only [write, bind, Except.bind] at h
  cases hl : t.locate cwd p with
  | error g =>
    rw [hl] at h
    obtain rfl : g = f := Except.error.inj h
    exact ofSystem_of_locate hl
  | ok place =>
    rw [hl] at h
    rcases hg : t.get? place with _ | ⟨b, m⟩ | m
    all_goals simp only [hg] at h
    · cases h
    · cases h
    · exact congrArg PathFault.ofSystem (Except.error.inj h).symm

/-- From `t` to `t'`, the path has got the bytes, and nothing else has happened. -/
structure Stored (cwd : List Text) (p : Path) (bytes : Bytes) (t t' : Tree) : Prop where
  holds : t'.read cwd p = .ok bytes
  elsewhere : ∀ place, place ≠ p.resolve cwd → t'.get? place = t.get? place
  folders : SameFolders t t'

theorem stored_of_write {t t' : Tree} {cwd : List Text} {p : Path} {bytes : Bytes} {now : Number}
    (hcwd : ['.', '.'] ∉ cwd) (h : t.write cwd p bytes now = .ok t') :
    Stored cwd p bytes t t' := by
  obtain ⟨place, hl, hfolder, rfl⟩ := write_eq_ok.mp h
  have hplace : place = p.resolve cwd := eq_resolve_of_locate hcwd hl
  have hne : place ≠ [] := ne_nil_of_not_isFolder hfolder
  have hf : SameFolders t (t.put place (.file bytes now)) := sameFolders_put hfolder bytes now
  refine ⟨read_eq_ok.mpr ⟨place, now, locate_sameFolders hf hl, ?_⟩, ?_, hf⟩
  · rw [get?_put hne, if_pos rfl]
  · intro q hq
    rw [get?_put hne, if_neg (hplace ▸ hq)]

/-- From `t` to `t'`, the path may have got other bytes, and nothing else has happened. -/
def Touched (cwd : List Text) (p : Path) (t t' : Tree) : Prop :=
  t' = t ∨ ∃ bytes, Stored cwd p bytes t t'

namespace Touched

variable {cwd : List Text} {p : Path} {t t' : Tree}

theorem folders (h : Touched cwd p t t') : SameFolders t t' := by
  rcases h with rfl | ⟨bytes, hstored⟩
  · exact .refl _
  · exact hstored.folders

theorem elsewhere (h : Touched cwd p t t') {place : List Text} (hp : place ≠ p.resolve cwd) :
    t'.get? place = t.get? place := by
  rcases h with rfl | ⟨bytes, hstored⟩
  · rfl
  · exact hstored.elsewhere place hp

end Touched

theorem read_kept {t t' : Tree} {cwd : List Text} {p : Path} {bytes : Bytes}
    (hcwd : ['.', '.'] ∉ cwd) (hf : SameFolders t t')
    (hp : t'.get? (p.resolve cwd) = t.get? (p.resolve cwd)) (h : t.read cwd p = .ok bytes) :
    t'.read cwd p = .ok bytes := by
  obtain ⟨place, m, hl, hg⟩ := read_eq_ok.mp h
  have hplace := eq_resolve_of_locate hcwd hl
  refine read_eq_ok.mpr ⟨place, m, locate_sameFolders hf hl, ?_⟩
  rw [hplace, hp, ← hplace]
  exact hg

end Tree

end Literate
