import Literate.Proofs.Tangle.References
import Literate.Proofs.Weave.Anchors
import Literate.Proofs.Weave.Tags

namespace Literate.Weave

open Tangle Document Markup

variable {h : Highlighter} {filler extension : Text} {anchors : Anchors} {chunks : List Chunk}
  {ds : List Definition} {seen : List Text}

/-- The definitions, each with whether none before it has the same name. -/
def marked (ds : List Definition) : List (Definition × Bool) :=
  ds.mapIdx fun i d => (d, decide (d.key ∉ (ds.take i).map Definition.key))

/-- The same where the keys of `seen` have been defined before. -/
def markedAfter (seen : List Text) : List Definition → List (Definition × Bool)
  | [] => []
  | d :: ds => (d, decide (d.key ∉ seen)) :: markedAfter (d.key :: seen) ds

theorem markedAfter_eq_mapIdx (seen : List Text) (ds : List Definition) : markedAfter seen ds =
    ds.mapIdx fun i d => (d, decide (d.key ∉ seen ∧ d.key ∉ (ds.take i).map Definition.key)) := by
  induction ds generalizing seen with
  | nil => rfl
  | cons d ds ih =>
    rw [markedAfter, ih, List.mapIdx_cons]
    congr 1
    · simp
    · apply List.mapIdx_eq_mapIdx_iff.2
      intro i hi
      simp only [List.take_succ_cons, List.map_cons, List.mem_cons, not_or, Prod.mk.injEq,
        true_and, decide_eq_decide]
      tauto

theorem marked_eq (ds : List Definition) : marked ds = markedAfter [] ds := by
  rw [markedAfter_eq_mapIdx, marked]
  simp

def firstMarked (ms : List (Definition × Bool)) : List Definition := (ms.filter (·.2)).map (·.1)

theorem map_fst_markedAfter (seen : List Text) (ds : List Definition) :
    (markedAfter seen ds).map (·.1) = ds := by
  induction ds generalizing seen with
  | nil => rfl
  | cons d ds ih => exact congrArg (d :: ·) (ih _)

theorem keys_cons (d : Definition) (ds : List Definition) :
    keys (d :: ds) = d.key :: (keys ds).filter (· ≠ d.key) := rfl

/-- Those that are marked are the first ones of their keys, in the order of the keys. -/
theorem firstMarked_markedAfter (seen : List Text) (ds : List Definition) :
    firstMarked (markedAfter seen ds) =
      ((keys ds).filter (· ∉ seen)).filterMap fun k => (group k ds).head? := by
  induction ds generalizing seen with
  | nil => rfl
  | cons d ds ih =>
    -- behind `d` no other key has another first definition
    have hlater : ∀ ks : List Text, d.key ∉ ks →
        ks.filterMap (fun k => (group k (d :: ds)).head?) =
          ks.filterMap fun k => (group k ds).head? := by
      intro ks hks
      apply List.filterMap_congr
      intro k hk
      have hne : d.key ≠ k := fun h => hks (h ▸ hk)
      simp [group, hne]
    have hfilter : ((keys ds).filter (· ≠ d.key)).filter (· ∉ seen) =
        (keys ds).filter (· ∉ d.key :: seen) := by
      rw [List.filter_filter]
      apply List.filter_congr
      intro k hk
      simp [and_comm]
    have hnone : d.key ∉ (keys ds).filter (· ∉ d.key :: seen) := by simp
    rw [keys_cons, List.filter_cons, hfilter]
    by_cases h : d.key ∈ seen
    · have hmarked : firstMarked (markedAfter seen (d :: ds)) =
          firstMarked (markedAfter (d.key :: seen) ds) := by
        simp [firstMarked, markedAfter, h]
      rw [hmarked, ih, if_neg (by simpa using h), hlater _ hnone]
    · have hmarked : firstMarked (markedAfter seen (d :: ds)) =
          d :: firstMarked (markedAfter (d.key :: seen) ds) := by
        simp [firstMarked, markedAfter, h]
      have hhead : (group d.key (d :: ds)).head? = some d := by simp [group]
      rw [hmarked, ih, if_pos (by simpa using h), List.filterMap_cons, hhead, hlater _ hnone]

theorem firstMarked_marked (ds : List Definition) :
    firstMarked (marked ds) = (keys ds).filterMap fun k => (group k ds).head? := by
  rw [marked_eq, firstMarked_markedAfter]
  simp

theorem map_key_firstMarked (ds : List Definition) :
    (firstMarked (marked ds)).map Definition.key = keys ds := by
  have hkey : ∀ k ∈ keys ds, (group k ds).head?.map Definition.key = some k := by
    intro k hk
    obtain ⟨d, more, hgroup⟩ := List.exists_cons_of_ne_nil
      fun h => (group_eq_nil_iff.1 h) hk
    have hd : d ∈ group k ds := by simp [hgroup]
    rw [hgroup, List.head?_cons, Option.map_some, (mem_group.1 hd).2]
  rw [firstMarked_marked, List.map_filterMap, List.filterMap_congr hkey, List.filterMap_some]

theorem collect_of_firstMarked (ds : List Definition) :
    (collect ds).map (fun d => (d.name, d.position)) =
      (firstMarked (marked ds)).map fun d => (d.name, d.position) := by
  rw [firstMarked_marked, collect, List.map_filterMap, List.map_filterMap]
  apply List.filterMap_congr
  intro k hk
  cases group k ds with
  | nil => rfl
  | cons d more => rfl

/-- Every bracket that could begin a tag begins the one of a span. -/
def SpansIn (html : Text) : Prop :=
  ∀ tail ∈ html.tails, tail.head? = some '<' → "<span class=\"" <+: tail ∨ "</span>" <+: tail

instance (html : Text) : Decidable (SpansIn html) :=
  inferInstanceAs (Decidable (∀ tail ∈ html.tails, _))

/-- A highlighter that adds no tags but those of spans, whatever the language. -/
def Highlighter.SpansOnly (h : Highlighter) : Prop :=
  ∀ extension code, SpansIn (h.ofExtension extension code)

theorem spansIn_of_notMem {html : Text} (hnone : '<' ∉ html) : SpansIn html := by
  intro tail htail hhead
  have hmem : '<' ∈ tail := List.mem_of_mem_head? hhead
  exact absurd (((List.mem_tails _ _).1 htail).subset hmem) hnone

theorem spansIn_of_concat {html : Text} (hspans : SpansIn (html ++ ['\n'])) : SpansIn html := by
  intro tail htail hhead
  have hlonger : tail ++ ['\n'] ∈ (html ++ ['\n']).tails := by
    obtain ⟨front, rfl⟩ := (List.mem_tails _ _).1 htail
    exact (List.mem_tails _ _).2 ⟨front, by rw [List.append_assoc]⟩
  have hmarks : ∀ mark ∈ (["<span class=\"", "</span>"] : List Text),
      mark <+: tail ++ ['\n'] → mark <+: tail := by
    intro mark hmark hbegins
    have hline : ∀ mark ∈ (["<span class=\"", "</span>"] : List Text), '\n' ∉ mark := by decide
    refine (List.prefix_concat_iff.1 hbegins).resolve_left fun heq => hline mark hmark ?_
    rw [heq]
    exact List.mem_append_right _ List.mem_cons_self
  have hhead' : (tail ++ ['\n']).head? = some '<' := by
    rw [List.head?_append, hhead, Option.some_or]
  exact (hspans _ hlonger hhead').imp (hmarks _ (by simp)) (hmarks _ (by simp))

theorem spansIn_codeHtml (hspans : h.SpansOnly) (extension code : Text) :
    SpansIn (codeHtml h extension code) := by
  unfold codeHtml
  dsimp only
  split_ifs with hempty hended
  · exact spansIn_of_notMem List.not_mem_nil
  · obtain ⟨shown, hshown⟩ := List.getLast?_eq_some_iff.1 hended.2
    have hall := hspans extension code
    rw [hshown] at hall ⊢
    rw [List.dropLast_concat]
    exact spansIn_of_concat hall
  · exact hspans extension code

/-- A part of a block of code: code that stands as it is, or the use of a macro, which is a link. -/
inductive ShownPart where
  | code (html : Text)
  | use (leadsTo key indent : Text)

/-- A definition as it is shown: with an id or without, with a header that leads to an anchor, and
with its body. -/
structure ShownBlock where
  id : Option Text
  leadsTo : Text
  key : Text
  operator : Text
  body : List ShownPart

inductive Item where
  | prose (html : Text)
  | block (b : ShownBlock)

def ShownPart.html : ShownPart → Text
  | code html => html
  | use leadsTo key indent =>
    escape indent ++ linkOf leadsTo (macroLabel key) " class=\"macro-ref\"" ++ "\n"

def ShownBlock.html (b : ShownBlock) : Text :=
  blockHtml b.id (linkOf b.leadsTo (macroLabel b.key ++ b.operator) [])
    (b.body.flatMap ShownPart.html)

def Item.html : Item → Text
  | prose html => html
  | block b => b.html

def blocksOf (items : List Item) : List ShownBlock :=
  items.filterMap fun
    | .block b => some b
    | .prose _ => none

/-- The items that are prose start no block. -/
def ProseOnly (items : List Item) : Prop :=
  ∀ html : Text, .prose html ∈ items → ∀ front rest : Text, html ≠ front ++ ("<div" ++ rest)

def ids (items : List Item) : List Text := (blocksOf items).filterMap ShownBlock.id

/-- The uses in a body: where each leads to and which macro it names. -/
def ShownBlock.uses (b : ShownBlock) : List (Text × Text) :=
  b.body.filterMap fun
    | .use leadsTo key _ => some (leadsTo, key)
    | .code _ => none

/-- The code of a body, as it stands between the uses. -/
def ShownBlock.codes (b : ShownBlock) : List Text :=
  b.body.filterMap fun
    | .use _ _ _ => none
    | .code html => some html

/-- A run of adjacent literals is highlighted as a whole. -/
def runs (parts : List Part) : List Text :=
  (fragments parts).filterMap fun
    | .reference _ _ => none
    | .code text => some text

/-- A block shows a definition: only the first of its name has an id and the operator of one. -/
structure Shows (h : Highlighter) (extension : Text) (m : Definition × Bool) (b : ShownBlock) :
    Prop where
  key : b.key = m.1.key
  id : b.id.isSome = m.2
  operator : b.operator = operator m.2
  uses : b.uses.map (·.2) = mentioned m.1.parts
  codes : b.codes = (runs m.1.parts).map (codeHtml h extension)

/-- The blocks of a page show its definitions in order, and a link leads to the block with the id
that it names, which is the first one of exactly the name of the link. -/
structure CrossLinked (h : Highlighter) (extension : Text) (chunks : List Chunk)
    (items : List Item) : Prop where
  prose : ProseOnly items
  /-- Code brings no block and no link of its own where a highlighter adds spans alone. -/
  code : h.SpansOnly → ∀ b ∈ blocksOf items, ∀ html ∈ b.codes, SpansIn html
  shows : List.Forall₂ (Shows h extension) (marked (definitions chunks)) (blocksOf items)
  nonempty : [] ∉ ids items
  distinct : ((ids items).map escape).Nodup
  header : ∀ b ∈ blocksOf items, ∃ first ∈ blocksOf items,
    first.key = b.key ∧ first.id = some b.leadsTo
  uses : ∀ b ∈ blocksOf items, ∀ u ∈ b.uses, Defined chunks u.2 → ∃ first ∈ blocksOf items,
    first.key = u.2 ∧ first.id = some u.1

def shownPart (h : Highlighter) (filler extension : Text) (anchors : Anchors) :
    Fragment → ShownPart
  | .code text => .code (codeHtml h extension text)
  | .reference target indent => .use (anchorOf filler anchors target.text) target.key indent

def shownBlock (h : Highlighter) (filler extension : Text) (anchors : Anchors)
    (m : Definition × Bool) : ShownBlock where
  id := if m.2 then some (anchorOf filler anchors m.1.name.text) else none
  leadsTo := anchorOf filler anchors m.1.name.text
  key := m.1.key
  operator := operator m.2
  body := (fragments m.1.parts).map (shownPart h filler extension anchors)

theorem macroLabel_key (n : Name) : macroLabel n.key = macroLabel n.text :=
  congrArg (fun t => "&lt;&lt; " ++ escape t ++ " &gt;&gt;") (Text.trim_trim n.text)

theorem html_shownPart (fragment : Fragment) :
    (shownPart h filler extension anchors fragment).html =
      fragmentHtml h filler extension anchors fragment := by
  cases fragment with
  | code text => rfl
  | reference target indent =>
    show escape indent ++ linkOf (anchorOf filler anchors target.text) (macroLabel target.key)
      " class=\"macro-ref\"" ++ "\n" = _
    rw [macroLabel_key]
    rfl

theorem html_shownBlock (m : Definition × Bool) :
    (shownBlock h filler extension anchors m).html =
      definitionBlock h filler extension anchors m.2 m.1 := by
  have hparts : ((fragments m.1.parts).map (shownPart h filler extension anchors)).flatMap
      ShownPart.html = partsHtml h filler extension anchors m.1.parts := by
    rw [List.flatMap_map, partsHtml]
    simp only [html_shownPart]
  rw [ShownBlock.html, definitionBlock_eq, ← hparts, ← macroLabel_key]
  rfl

theorem references_fragments (ps : List Part) :
    (fragments ps).filterMap (fun
      | .reference target _ => some target.key
      | .code _ => none) = mentioned ps := by
  induction ps with
  | nil => rfl
  | cons p ps ih =>
    cases p with
    | literal s =>
      have hadded : mentioned (.literal s :: ps) = mentioned ps := rfl
      rw [fragments, hadded, ← ih]
      cases fragments ps with
      | nil => rfl
      | cons f fs =>
        cases f with
        | code t => rfl
        | reference target indent => rfl
    | reference target indent => exact congrArg (target.key :: ·) ih
    | foreign x => exact x.elim

theorem uses_shownBlock (m : Definition × Bool) :
    (shownBlock h filler extension anchors m).uses.map (·.2) = mentioned m.1.parts := by
  rw [← references_fragments, ShownBlock.uses, List.map_filterMap]
  show ((fragments m.1.parts).map (shownPart h filler extension anchors)).filterMap _ = _
  rw [List.filterMap_map]
  apply List.filterMap_congr
  intro fragment hmem
  cases fragment with
  | code text => rfl
  | reference target indent => rfl

theorem codes_shownBlock (m : Definition × Bool) :
    (shownBlock h filler extension anchors m).codes =
      (runs m.1.parts).map (codeHtml h extension) := by
  rw [runs, List.map_filterMap]
  show ((fragments m.1.parts).map (shownPart h filler extension anchors)).filterMap _ = _
  rw [List.filterMap_map]
  apply List.filterMap_congr
  intro fragment hmem
  cases fragment with
  | code text => rfl
  | reference target indent => rfl

theorem shows_shownBlock (m : Definition × Bool) :
    Shows h extension m (shownBlock h filler extension anchors m) where
  key := rfl
  id := by
    rcases m with ⟨d, first⟩
    cases first with
    | false => rfl
    | true => rfl
  operator := rfl
  uses := uses_shownBlock m
  codes := codes_shownBlock m

/-- A use of a macro leads to the anchor of a name with the key that it shows. -/
theorem of_mem_uses {m : Definition × Bool} {u : Text × Text}
    (h : u ∈ (shownBlock h filler extension anchors m).uses) :
    ∃ n : Name, u = (anchorOf filler anchors n.text, n.key) := by
  obtain ⟨part, hpart, hu⟩ := List.mem_filterMap.1 h
  obtain ⟨fragment, -, rfl⟩ := List.mem_map.1 hpart
  cases fragment with
  | code text => cases hu
  | reference target indent => exact ⟨target, (Option.some.inj hu).symm⟩

theorem blocksOf_append (items more : List Item) :
    blocksOf (items ++ more) = blocksOf items ++ blocksOf more := List.filterMap_append

theorem secondChar_proseTag {tag : Text} (h : ProseTag tag) :
    1 < tag.length ∧ tag[1]? ≠ some 'd' := by
  have hstarts : ∀ start ∈ (["</", "<code class=\"language-", linkStart, imageStart] : List Text),
      1 < start.length ∧ start[1]? ≠ some 'd' := by decide
  have happend : ∀ start ∈ (["</", "<code class=\"language-", linkStart, imageStart] : List Text),
      ∀ more, 1 < (start ++ more).length ∧ (start ++ more)[1]? ≠ some 'd' := by
    intro start hstart more
    obtain ⟨hlength, hsecond⟩ := hstarts start hstart
    rw [List.getElem?_append_left hlength, List.length_append]
    exact ⟨by omega, hsecond⟩
  -- the tag of a block begins with `d`, and no tag of prose does
  cases h with
  | opening mem =>
    have hnames : ∀ name ∈ openingNames,
        1 < (("<" ++ name ++ ">") : Text).length ∧
          (("<" ++ name ++ ">") : Text)[1]? ≠ some 'd' := by
      decide
    exact hnames _ mem
  | closing mem =>
    rw [List.append_assoc]
    exact happend _ (by simp) _
  | language name =>
    rw [List.append_assoc]
    exact happend _ (by simp) _
  | link pieces shut =>
    rw [List.append_assoc]
    exact happend _ (by simp) _
  | image pieces described shut =>
    simp only [List.append_assoc]
    exact happend _ (by simp) _

theorem noBlock_of_tagged {html : Text} (h : Tagged ProseTag html) (front rest : Text) :
    html ≠ front ++ ("<div" ++ rest) := by
  rintro rfl
  obtain ⟨tag, htag, more, hmore⟩ := h.of_append.1.tag rfl
  obtain ⟨hlength, hsecond⟩ := secondChar_proseTag htag
  have hsame : (tag ++ more)[1]? = tag[1]? := List.getElem?_append_left hlength
  apply hsecond
  rw [← hsame, hmore]
  rfl

theorem exists_proseItems (lines : List Text) : ∃ items, proseBlock lines = items.map Item.html ∧
    ProseOnly items ∧ blocksOf items = [] := by
  unfold proseBlock
  split
  · exact ⟨[], rfl, by simp [ProseOnly], rfl⟩
  · split
    · exact ⟨[], rfl, by simp [ProseOnly], rfl⟩
    · refine ⟨[.prose (proseHtml (Text.joinLines lines))], rfl, ?_, rfl⟩
      intro html hmem
      obtain rfl := Item.prose.inj (List.mem_singleton.1 hmem)
      exact noBlock_of_tagged (tagged_proseHtml _)

theorem exists_items (h : Highlighter) (filler extension : Text) (anchors : Anchors)
    (chunks : List Chunk) (seen prose : List Text) : ∃ items,
      pageBlocks h filler extension anchors seen prose chunks = items.map Item.html ∧
      ProseOnly items ∧
      blocksOf items =
        (markedAfter seen (definitions chunks)).map (shownBlock h filler extension anchors) := by
  induction chunks generalizing seen prose with
  | nil => exact exists_proseItems prose
  | cons c cs ih =>
    cases c with
    -- lines are kept until a definition or the end sets them down as prose
    | narrative line => exact ih seen (prose ++ [line])
    | definition d =>
      obtain ⟨before, hbefore, hbeforeProse, hnone⟩ := exists_proseItems prose
      obtain ⟨after, hafter, hafterProse, hblocks⟩ := ih (d.key :: seen) []
      let block := shownBlock h filler extension anchors (d, decide (d.key ∉ seen))
      refine ⟨before ++ .block block :: after, ?_, ?_, ?_⟩
      · have hblock : Item.html (.block block) =
            definitionBlock h filler extension anchors (decide (d.key ∉ seen)) d :=
          html_shownBlock _
        rw [pageBlocks, hbefore, hafter, List.map_append, List.map_cons, hblock]
      · intro html hmem
        rcases List.mem_append.1 hmem with hmem | hmem
        · exact hbeforeProse html hmem
        · rcases List.mem_cons.1 hmem with hmem | hmem
          · cases hmem
          · exact hafterProse html hmem
      · rw [blocksOf_append, hnone]
        exact congrArg (block :: ·) hblocks
    | foreign x => exact x.elim

theorem anchorOf_congr {m n : Name} (h : m.key = n.key) :
    anchorOf filler anchors m.text = anchorOf filler anchors n.text := by
  rw [← anchorOf_key, h, anchorOf_key]

theorem ids_shown {items : List Item} {ms : List (Definition × Bool)}
    (hblocks : blocksOf items = ms.map (shownBlock h filler extension anchors)) :
    ids items = (firstMarked ms).map fun d => anchorOf filler anchors d.name.text := by
  rw [ids, hblocks, List.filterMap_map]
  clear hblocks
  induction ms with
  | nil => rfl
  | cons m ms ih =>
    rcases m with ⟨d, first⟩
    cases first with
    | false => exact ih
    | true => exact congrArg (anchorOf filler anchors d.name.text :: ·) ih

theorem exists_firstMarked {k : Text} (h : k ∈ keys ds) :
    ∃ d, (d, true) ∈ marked ds ∧ d.key = k := by
  rw [← map_key_firstMarked] at h
  obtain ⟨d, hd, rfl⟩ := List.mem_map.1 h
  obtain ⟨⟨d', first⟩, hm, rfl⟩ := List.mem_map.1 hd
  obtain ⟨hmem, hfirst⟩ := List.mem_filter.1 hm
  obtain rfl : first = true := hfirst
  exact ⟨d', hmem, rfl⟩

theorem defined_of_marked {m : Definition × Bool} (h : m ∈ marked (definitions chunks)) :
    Defined chunks m.1.key := by
  rw [marked_eq] at h
  have hmem : m.1 ∈ definitions chunks := by
    rw [← map_fst_markedAfter [] (definitions chunks)]
    exact List.mem_map_of_mem h
  exact mem_keys.2 ⟨m.1, hmem, rfl⟩

theorem defined_of_firstMarked {d : Definition}
    (h : d ∈ firstMarked (marked (definitions chunks))) :
    Defined chunks d.key := by
  obtain ⟨m, hm, rfl⟩ := List.mem_map.1 h
  exact defined_of_marked (List.mem_filter.1 hm).1

theorem nodup_firstAnchors (filler : Text) (chunks : List Chunk) :
    ((firstMarked (marked (definitions chunks))).map fun d =>
      anchorOf filler (documentAnchors filler chunks) d.name.text).Nodup := by
  have hkeys : ((firstMarked (marked (definitions chunks))).map Definition.key).Nodup := by
    rw [map_key_firstMarked]
    exact nodup_firsts _
  apply hkeys.of_map.map_on
  intro d hd e he hsame
  have hkey : d.key = e.key :=
    key_eq_of_anchorOf_eq (defined_of_firstMarked hd) (defined_of_firstMarked he) hsame
  exact List.inj_on_of_nodup_map hkeys hd he hkey

def shownBlocks (h : Highlighter) (filler extension : Text) (chunks : List Chunk) :
    List ShownBlock :=
  (marked (definitions chunks)).map (shownBlock h filler extension (documentAnchors filler chunks))

theorem exists_pageItems (h : Highlighter) (filler extension : Text) (chunks : List Chunk) :
    ∃ items, (bodyTraced h filler extension chunks).result =
        .ok (Text.joinLines (items.map Item.html)) ∧
      ProseOnly items ∧ blocksOf items = shownBlocks h filler extension chunks := by
  obtain ⟨items, hitems, hprose, hblocks⟩ :=
    exists_items h filler extension (documentAnchors filler chunks) chunks [] []
  rw [← marked_eq] at hblocks
  exact ⟨items, by rw [result_bodyTraced, pageBody, hitems], hprose, hblocks⟩

section

variable {items : List Item}

theorem exists_block_with_id (hblocks : blocksOf items = shownBlocks h filler extension chunks)
    {n : Name} (hn : Defined chunks n.key) :
    ∃ first ∈ blocksOf items, first.key = n.key ∧
      first.id = some (anchorOf filler (documentAnchors filler chunks) n.text) := by
  obtain ⟨d, hd, hkey⟩ := exists_firstMarked hn
  refine ⟨shownBlock h filler extension (documentAnchors filler chunks) (d, true), ?_, hkey, ?_⟩
  · rw [hblocks]
    exact List.mem_map_of_mem hd
  · exact congrArg some (anchorOf_congr hkey)

theorem crossLinked_of_shown (hprose : ProseOnly items)
    (hblocks : blocksOf items = shownBlocks h filler extension chunks) :
    CrossLinked h extension chunks items where
  prose := hprose
  code hspans b hb html hcode := by
    rw [hblocks] at hb
    obtain ⟨m, -, rfl⟩ := List.mem_map.1 hb
    rw [codes_shownBlock] at hcode
    obtain ⟨code, -, rfl⟩ := List.mem_map.1 hcode
    exact spansIn_codeHtml hspans extension code
  shows := by
    rw [hblocks, shownBlocks, List.forall₂_map_right_iff, List.forall₂_same]
    exact fun m _ => shows_shownBlock m
  -- the ids are the escaped anchors of the first definitions, in their order
  nonempty := by
    rw [ids_shown hblocks]
    intro hmem
    obtain ⟨d, hd, hnil⟩ := List.mem_map.1 hmem
    exact anchorOf_ne_nil (defined_of_firstMarked hd) hnil
  distinct := by
    rw [ids_shown hblocks]
    exact (nodup_firstAnchors filler chunks).map escape_injective
  header b hb := by
    rw [hblocks] at hb
    obtain ⟨m, hm, rfl⟩ := List.mem_map.1 hb
    exact exists_block_with_id hblocks (defined_of_marked hm)
  uses b hb u hu hdefined := by
    rw [hblocks] at hb
    obtain ⟨m, hm, rfl⟩ := List.mem_map.1 hb
    obtain ⟨n, rfl⟩ := of_mem_uses hu
    exact exists_block_with_id hblocks hdefined

end

/-- A document as Markdown: lines of prose, and fences with the header and the body of a
definition. -/
inductive MarkdownItem where
  | prose (line : Text)
  | fence (key operator body : Text)

def MarkdownItem.text (language : Text) : MarkdownItem → Text
  | prose line => line ++ "\n"
  | fence key operator body =>
    fenceMark ++ language ++ "\n" ++ ("<< " ++ key ++ " >>" ++ operator ++ "\n") ++ body ++
      fenceMark ++ "\n"

def fencesOf (items : List MarkdownItem) : List (Text × Text × Text) :=
  items.filterMap fun
    | .fence key operator body => some (key, operator, body)
    | .prose _ => none

theorem exists_markdownItems (language : Text) (seen : List Text) (chunks : List Chunk) : ∃ items,
    markdownFrom language seen chunks = items.flatMap (MarkdownItem.text language) ∧
    fencesOf items = (markedAfter seen (definitions chunks)).map fun m =>
      (m.1.key, operator m.2, markdownBody m.1.parts) := by
  induction chunks generalizing seen with
  | nil => exact ⟨[], rfl, rfl⟩
  | cons c cs ih =>
    cases c with
    | narrative line =>
      obtain ⟨items, hitems, hfences⟩ := ih seen
      refine ⟨.prose line :: items, ?_, hfences⟩
      rw [List.flatMap_cons, ← hitems]
      rfl
    | definition d =>
      obtain ⟨items, hitems, hfences⟩ := ih (d.key :: seen)
      refine ⟨.fence d.key (operator (decide (d.key ∉ seen))) (markdownBody d.parts) :: items,
        ?_, congrArg (_ :: ·) hfences⟩
      rw [List.flatMap_cons, ← hitems]
      rfl
    | foreign x => exact x.elim

/-- The blocks of a page show the definitions in order. The first of a name has an id, unlike that
of any other, and `=` in its header; to it lead its own header, those of the later definitions of
that name, which have `+=`, and every use of the name. The same definitions have `=` and `+=` in the
Markdown, and those with `=` are the ones whose names and positions the collected definitions
take. -/
theorem definitions_cross_linked (h : Highlighter) (filler extension : Text)
    (chunks : List Chunk) :
    (∃ items, (bodyTraced h filler extension chunks).result =
        .ok (Text.joinLines (items.map Item.html)) ∧
      CrossLinked h extension chunks items) ∧
    (∃ items, (markdownTraced extension chunks).result =
        .ok (items.flatMap (MarkdownItem.text (languageOf extension))) ∧
      fencesOf items = (marked (definitions chunks)).map fun m =>
        (m.1.key, operator m.2, markdownBody m.1.parts)) ∧
    ∃ merged, collect? (definitions chunks) = .ok merged ∧
      merged.map (fun d => (d.name, d.position)) =
        ((marked (definitions chunks)).filter (·.2)).map fun m => (m.1.name, m.1.position) := by
  refine ⟨?_, ?_, ?_⟩
  · obtain ⟨items, hitems, hprose, hblocks⟩ := exists_pageItems h filler extension chunks
    exact ⟨items, hitems, crossLinked_of_shown hprose hblocks⟩
  · obtain ⟨items, hitems, hfences⟩ := exists_markdownItems (languageOf extension) [] chunks
    rw [← marked_eq] at hfences
    refine ⟨items, ?_, hfences⟩
    rw [result_markdownTraced, markdown, hitems]
  · refine ⟨collect (definitions chunks), collect?_eq _, ?_⟩
    rw [collect_of_firstMarked, firstMarked, List.map_map]
    rfl

def Highlighter.passing : Highlighter where
  plain := Highlighter.quoting.plain
  ofFileName? name :=
    if name = ("source.py" : Text) then
      some fun code =>
        if code = ("pass\n" : Text) then "<span class=\"k\">pass</span>\n"
        else Highlighter.quoting.plain code
    else none
  rules := Highlighter.bare.rules

theorem spansOnly_passing : Highlighter.passing.SpansOnly := by
  intro extension code
  have hplain : SpansIn (Highlighter.passing.plain code) :=
    spansIn_of_notMem (bracket_notMem_plain true _)
  unfold Highlighter.ofExtension
  cases dottedExtension extension with
  | nil => exact hplain
  | cons c rest =>
    show SpansIn ((Highlighter.passing.ofFileName? ("source" ++ c :: rest)).getD
      Highlighter.passing.plain code)
    unfold Highlighter.passing
    dsimp only
    split_ifs with hpython
    · show SpansIn (if code = ("pass\n" : Text) then _ else Highlighter.quoting.plain code)
      split_ifs
      · decide
      · exact hplain
    · exact hplain

def passages : List Chunk :=
  [.definition (.after 0 "a_b" [.to "a b" []]), .definition (.after 3 " a b" [.literal "pass\n"]),
    .definition (.after 6 "a b" [.literal "pass\n", .to " a b " "  "])]

theorem definitions_cross_linked_passages :
    Highlighter.passing.SpansOnly ∧
    ∃ items, CrossLinked .passing ".py" passages items ∧
      (∀ b ∈ blocksOf items, ∀ html ∈ b.codes, SpansIn html) ∧
      Text.joinLines (items.map Item.html) =
        ("<div class=\"definition\" id=\"a_b\">\n" ++
        "<p class=\"macro-header\"><a href=\"#a_b\">&lt;&lt; a_b &gt;&gt;=</a></p>\n" ++
        "<pre class=\"highlight\"><code>" ++
        "<a class=\"macro-ref\" href=\"#a_b-2\">&lt;&lt; a b &gt;&gt;</a>\n" ++
        "</code></pre>\n</div>\n" ++
        "<div class=\"definition\" id=\"a_b-2\">\n" ++
        "<p class=\"macro-header\"><a href=\"#a_b-2\">&lt;&lt; a b &gt;&gt;=</a></p>\n" ++
        "<pre class=\"highlight\"><code><span class=\"k\">pass</span>\n</code></pre>\n</div>\n" ++
        "<div class=\"definition\">\n" ++
        "<p class=\"macro-header\"><a href=\"#a_b-2\">&lt;&lt; a b &gt;&gt;+=</a></p>\n" ++
        "<pre class=\"highlight\"><code><span class=\"k\">pass</span>\n" ++
        "  <a class=\"macro-ref\" href=\"#a_b-2\">&lt;&lt; a b &gt;&gt;</a>\n" ++
        "</code></pre>\n</div>" : Text) := by
  obtain ⟨⟨items, hitems, hlinked⟩, -⟩ :=
    definitions_cross_linked .passing defaultFiller ".py" passages
  refine ⟨spansOnly_passing, items, hlinked, hlinked.code spansOnly_passing, ?_⟩
  rw [result_bodyTraced] at hitems
  rw [← Except.ok.inj hitems]
  decide +kernel

end Literate.Weave
