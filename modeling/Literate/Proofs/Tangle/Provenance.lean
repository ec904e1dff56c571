import Literate.Proofs.Tangle.References
import Literate.Tangle.Unfolding

namespace Literate.Tangle

open Document (definitions)

/-- What a macro is made of: where each of its definitions starts, and their parts. -/
inductive Entry where
  | start (p : Position)
  | part (p : Part)

namespace Entry

def part? : Entry → Option Part
  | start _ => none
  | part p => some p

def located (token : Text) : Entry → Part
  | start p => .literal (locationLine p token)
  | part p => p

end Entry

/-- All definitions of a key in document order, each behind its start. -/
def entries (ds : List Definition) (k : Text) : List Entry :=
  (group k ds).flatMap fun d => .start d.position :: d.parts.map .part

variable {ds : List Definition} {k token : Text}

theorem filterMap_part?_entries (ds : List Definition) (k : Text) :
    (entries ds k).filterMap Entry.part? = bodies (group k ds) := by
  rw [entries, List.filterMap_flatMap, bodies]
  refine List.flatMap_congr fun d _ => ?_
  rw [List.filterMap_cons_none rfl, List.filterMap_map]
  exact List.filterMap_some

theorem map_located_entries (token : Text) (ds : List Definition) (k : Text) :
    (entries ds k).map (Entry.located token) = bodies (group k (withLocations token ds)) := by
  rw [withLocations, group_map_withParts, bodies, List.flatMap_map, entries, List.map_flatMap]
  simp [locatedParts, Entry.located, Function.comp_def]

theorem map_key_withLocations (token : Text) (ds : List Definition) :
    (withLocations token ds).map Definition.key = ds.map Definition.key := by
  simp [withLocations]

theorem keys_withLocations (token : Text) (ds : List Definition) :
    keys (withLocations token ds) = keys ds := by
  rw [keys, map_key_withLocations, keys]

/-- A literal or the start of a definition, behind the indentation of the references that lead
to it. -/
inductive Emission where
  | start (indent : Text) (p : Position)
  | literal (indent s : Text)

namespace Emission

def plain? : Emission → Option Text
  | start _ _ => none
  | literal indent s => some (indent ++ s)

def located (token : Text) : Emission → Text
  | start indent p => indent ++ locationLine p token
  | literal indent s => indent ++ s

end Emission

/-- What entries emit under an indentation. A reference to a macro emits its definitions, a
reference to nothing emits nothing. -/
inductive Emits (ds : List Definition) : Text → List Entry → List Emission → Prop where
  | nil {indent : Text} : Emits ds indent [] []
  | start {indent : Text} {p : Position} {es : List Entry} {out : List Emission}
      (rest : Emits ds indent es out) : Emits ds indent (.start p :: es) (.start indent p :: out)
  | literal {indent s : Text} {es : List Entry} {out : List Emission}
      (rest : Emits ds indent es out) :
      Emits ds indent (.part (.literal s) :: es) (.literal indent s :: out)
  | undefined {indent i : Text} {target : Name} {es : List Entry} {out : List Emission}
      (unknown : target.key ∉ keys ds) (rest : Emits ds indent es out) :
      Emits ds indent (.part (.reference target i) :: es) out
  | defined {indent i : Text} {target : Name} {es : List Entry} {inner out : List Emission}
      (known : target.key ∈ keys ds) (body : Emits ds (indent ++ i) (entries ds target.key) inner)
      (rest : Emits ds indent es out) :
      Emits ds indent (.part (.reference target i) :: es) (inner ++ out)

/-- What the root emits; without definitions there is no root. -/
def RootEmits (ds : List Definition) (asked : Text) (out : List Emission) : Prop :=
  match root? (collect ds) asked with
  | none => out = []
  | some r => Emits ds [] (entries ds r.key) out

theorem Emits.unique {indent : Text} {es : List Entry} {out out' : List Emission}
    (h : Emits ds indent es out) (h' : Emits ds indent es out') : out = out' := by
  induction h generalizing out' with
  | nil =>
    cases h'
    rfl
  | start _ ih =>
    cases h' with
    | start rest => rw [ih rest]
  | literal _ ih =>
    cases h' with
    | literal rest => rw [ih rest]
  | undefined unknown _ ih =>
    cases h' with
    | undefined _ rest => exact ih rest
    | defined known => exact absurd known unknown
  | defined known _ _ ihbody ih =>
    cases h' with
    | undefined unknown => exact absurd known unknown
    | defined _ body rest => rw [ihbody body, ih rest]

/-- A plain and a located unfolding of the same entries: they end alike, and without an obstacle
they emit the same, but that the second one writes out the starts. -/
structure Alongside (token : Text) (ds : List Definition) (indent : Text) (es : List Entry)
    (plain located : Unfolding) : Prop where
  stop : located.stop = plain.stop
  emits : plain.stop = none → ∃ out, Emits ds indent es out ∧
    plain.emitted = out.filterMap Emission.plain? ∧
    located.emitted = out.map (Emission.located token)

namespace Alongside

variable {indent i s : Text} {p : Position} {target : Name} {es : List Entry}
  {u v : Unfolding} {next next' : Unit → Unfolding}

theorem nil : Alongside token ds indent [] .done .done :=
  ⟨rfl, fun _ => ⟨[], .nil, rfl, rfl⟩⟩

theorem start (h : Alongside token ds indent es u v) :
    Alongside token ds indent (.start p :: es) u
      (v.after (.literal indent (locationLine p token))) := by
  refine ⟨h.stop, fun hclear => ?_⟩
  obtain ⟨out, hout, hu, hv⟩ := h.emits hclear
  exact ⟨_, hout.start, hu, congrArg (_ :: ·) hv⟩

theorem literal (h : Alongside token ds indent es u v) :
    Alongside token ds indent (.part (.literal s) :: es) (u.after (.literal indent s))
      (v.after (.literal indent s)) := by
  refine ⟨h.stop, fun hclear => ?_⟩
  obtain ⟨out, hout, hu, hv⟩ := h.emits hclear
  exact ⟨_, hout.literal, congrArg (_ :: ·) hu, congrArg (_ :: ·) hv⟩

theorem stopped (o : Obstacle) : Alongside token ds indent es (.stopped o) (.stopped o) :=
  ⟨rfl, fun hclear => by simp at hclear⟩

theorem undefined (unknown : target.key ∉ keys ds) (h : Alongside token ds indent es u v) :
    Alongside token ds indent (.part (.reference target i) :: es)
      (u.after (.unresolved target.key)) (v.after (.unresolved target.key)) := by
  refine ⟨h.stop, fun hclear => ?_⟩
  obtain ⟨out, hout, hu, hv⟩ := h.emits hclear
  exact ⟨out, hout.undefined unknown, hu, hv⟩

theorem defined (known : target.key ∈ keys ds)
    (hbody : Alongside token ds (indent ++ i) (entries ds target.key) u v)
    (h : Alongside token ds indent es (next ()) (next' ())) :
    Alongside token ds indent (.part (.reference target i) :: es) (u.andThen next)
      (v.andThen next') := by
  constructor
  · cases hu : u.stop with
    | some o =>
      have hv : v.stop = some o := hbody.stop.trans hu
      simp [Unfolding.andThen, hu, hv]
    | none =>
      have hv : v.stop = none := hbody.stop.trans hu
      simp [Unfolding.andThen, hu, hv, h.stop]
  · intro hclear
    obtain ⟨hu, hnext⟩ := Unfolding.stop_andThen_eq_none.1 hclear
    obtain ⟨inner, hinner, huin, hvin⟩ := hbody.emits hu
    obtain ⟨out, hout, huout, hvout⟩ := h.emits hnext
    refine ⟨inner ++ out, hinner.defined known hout, ?_, ?_⟩
    · rw [Unfolding.emitted_andThen hu, huin, huout, List.filterMap_append]
    · rw [Unfolding.emitted_andThen (hbody.stop.trans hu), hvin, hvout, List.map_append]

end Alongside

theorem lookup_collect (hk : k ∈ keys ds) :
    (table (collect ds)).lookup k = some ((entries ds k).filterMap Entry.part?) := by
  rw [lookup_table, body?_collect_of_mem hk, filterMap_part?_entries]

theorem lookup_collect_withLocations (hk : k ∈ keys ds) :
    (table (collect (withLocations token ds))).lookup k =
      some ((entries ds k).map (Entry.located token)) := by
  have hk' : k ∈ keys (withLocations token ds) := by rwa [keys_withLocations]
  rw [lookup_table, body?_collect_of_mem hk', map_located_entries]

theorem alongside_unfold (token : Text) (ds : List Definition) (stack : List Text) (indent : Text)
    (es : List Entry) :
    Alongside token ds indent es
      (unfold (table (collect ds)) stack indent (es.filterMap Entry.part?))
      (unfold (table (collect (withLocations token ds))) stack indent
        (es.map (Entry.located token))) := by
  -- a body is unfolded with one key less to put on the stack
  induction hn : (available (table (collect ds)) stack).length using Nat.strong_induction_on
    generalizing stack indent es with
  | _ n ih =>
    induction es with
    | nil =>
      rw [List.filterMap_nil, List.map_nil, unfold_nil, unfold_nil]
      exact .nil
    | cons e es ihes =>
      cases e with
      | start p =>
        rw [List.filterMap_cons_none rfl, List.map_cons, Entry.located, unfold_literal]
        exact ihes.start
      | part p =>
        have hpart : (Entry.part p :: es).filterMap Entry.part? = p :: es.filterMap Entry.part? :=
          rfl
        rw [hpart, List.map_cons, Entry.located]
        cases p with
        | foreign x => exact x.elim
        | literal s =>
          rw [unfold_literal, unfold_literal]
          exact ihes.literal
        | reference target i =>
          by_cases hs : target.key ∈ stack
          · rw [unfold_of_mem hs, unfold_of_mem hs]
            exact .stopped _
          · by_cases hk : target.key ∈ keys ds
            · have hl := lookup_collect hk
              rw [unfold_of_defined hs hl,
                unfold_of_defined hs (lookup_collect_withLocations hk)]
              exact .defined hk (ih _ (hn ▸ available_push_lt hs hl) _ _ _ rfl) ihes
            · have hk' : target.key ∉ keys (withLocations token ds) := by
                rwa [keys_withLocations]
              have hl : (table (collect ds)).lookup target.key = none := by
                rw [lookup_table, body?_collect_of_notMem hk]
              have hl' : (table (collect (withLocations token ds))).lookup target.key = none := by
                rw [lookup_table, body?_collect_of_notMem hk']
              rw [unfold_of_undefined hs hl, unfold_of_undefined hs hl']
              exact ihes.undefined hk

theorem Emits.rootEmits_iff {asked : Text} {ps : List Part} {out : List Emission}
    (hr : root? (collect ds) asked = some ⟨k, ps⟩) (h : Emits ds [] (entries ds k) out)
    (out' : List Emission) : RootEmits ds asked out' ↔ out' = out := by
  unfold RootEmits
  rw [hr]
  exact ⟨fun h' => h'.unique h, fun he => he ▸ h⟩

/-- The located run chooses the same root, ends alike and emits the same but for the starts. -/
theorem alongside_root (token : Text) (ds : List Definition) (asked : Text) :
    (unfoldRoot (collect (withLocations token ds)) asked).stop =
        (unfoldRoot (collect ds) asked).stop ∧
      ((unfoldRoot (collect ds) asked).stop = none → ∃ out,
        (∀ out', RootEmits ds asked out' ↔ out' = out) ∧
        (unfoldRoot (collect ds) asked).emitted = out.filterMap Emission.plain? ∧
        (unfoldRoot (collect (withLocations token ds)) asked).emitted =
          out.map (Emission.located token)) := by
  have hkeys : (collect ds).map Definition.key =
      (collect (withLocations token ds)).map Definition.key := by
    rw [map_key_collect, map_key_collect, keys_withLocations]
  obtain ⟨hr, hr'⟩ | ⟨k, ps, ps', hr, hr'⟩ := roots_of_same_keys asked hkeys
  · rw [unfoldRoot_of_noRoot hr, unfoldRoot_of_noRoot hr']
    refine ⟨rfl, fun _ => ⟨[], fun out' => ?_, rfl, rfl⟩⟩
    rw [RootEmits, hr]
  · have hl : (table (collect ds)).lookup k = some ps := lookup_root hr
    have hl' : (table (collect (withLocations token ds))).lookup k = some ps' := lookup_root hr'
    -- the root has a definition, and only the parts of merged entries are unfolded alongside
    have hk : k ∈ keys ds := by
      by_contra hk
      simp [lookup_table, body?_collect_of_notMem hk] at hl
    rw [lookup_collect hk, Option.some.injEq] at hl
    rw [lookup_collect_withLocations hk, Option.some.injEq] at hl'
    rw [unfoldRoot_of_root? hr, unfoldRoot_of_root? hr', ← hl, ← hl']
    obtain ⟨hstop, hemits⟩ := alongside_unfold token ds [k] [] (entries ds k)
    refine ⟨hstop, fun hclear => ?_⟩
    obtain ⟨out, hout, hplain, hlocated⟩ := hemits hclear
    exact ⟨out, hout.rootEmits_iff hr, hplain, hlocated⟩

/-- Located code fails where plain code does, with the same cycle. Otherwise both emit what the
root emits, piece by piece: the plain code without the starts of definitions, the located code with
a comment line for each of them. -/
theorem locatedCode_adds_locations (chunks : List Chunk) (extension fallback asked : Text) :
    (∀ o, locatedCode extension chunks asked fallback = .error o ↔ code chunks asked = .error o) ∧
      ∀ text, code chunks asked = .ok text → ∃ out : List Emission,
        (∀ out', RootEmits (definitions chunks) asked out' ↔ out' = out) ∧
        (unfoldRoot (collect (definitions chunks)) asked).emitted =
          out.filterMap Emission.plain? ∧
        (unfoldRoot (collect (withLocations (lineComment extension fallback)
          (definitions chunks))) asked).emitted =
            out.map (Emission.located (lineComment extension fallback)) ∧
        text = (out.filterMap Emission.plain?).flatten ∧
        locatedCode extension chunks asked fallback =
          .ok (out.map (Emission.located (lineComment extension fallback))).flatten := by
  obtain ⟨hstop, hemits⟩ :=
    alongside_root (lineComment extension fallback) (definitions chunks) asked
  refine ⟨fun o => ?_, fun text h => ?_⟩
  · rw [locatedCode, code, unfoldedText_eq_error_iff, unfoldedText_eq_error_iff, hstop]
  · obtain ⟨hclear, htext⟩ := unfoldedText_eq_ok_iff.1 h
    obtain ⟨out, hout, hplain, hlocated⟩ := hemits hclear
    refine ⟨out, hout, hplain, hlocated, ?_, ?_⟩
    · rw [← htext, ← hplain, Unfolding.flatten_emitted]
    · rw [locatedCode, unfoldedText_eq_ok_iff, ← hlocated, Unfolding.flatten_emitted]
      exact ⟨hstop.trans hclear, rfl⟩

def continued : List Chunk :=
  [.definition (.after 0 "a" []), .definition (.after 2 " a " [.literal "1\n"]),
    .narrative "prose", .definition (.after 5 "main" [.to "a" "  ", .literal "m\n", .to "a" []]),
    .definition (.after 9 "a" [.literal "2\n"])]

theorem continued_located : code continued rootName = .ok "  1\n  2\nm\n1\n2\n" ∧
    locatedCode " HS" continued rootName "//" =
      .ok ("-- doc:6\n  -- doc:1\n  -- doc:3\n  1\n  -- doc:10\n  2\nm\n" ++
        "-- doc:1\n-- doc:3\n1\n-- doc:10\n2\n" : String) ∧
    ∃ out : List Emission, (∀ out', RootEmits (definitions continued) rootName out' ↔ out' = out) ∧
      "  1\n  2\nm\n1\n2\n" = (out.filterMap Emission.plain?).flatten ∧
      locatedCode " HS" continued rootName "//" =
        .ok (out.map (Emission.located "--")).flatten := by
  have hcode : code continued rootName = .ok "  1\n  2\nm\n1\n2\n" := by cbv
  have htoken : lineComment " HS" "//" = "--" := by cbv
  obtain ⟨out, hout, -, -, hplain, hlocated⟩ :=
    (locatedCode_adds_locations continued " HS" "//" rootName).2 _ hcode
  rw [htoken] at hlocated
  exact ⟨hcode, by cbv, out, hout, hplain, hlocated⟩

end Literate.Tangle
