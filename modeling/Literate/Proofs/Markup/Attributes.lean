import Literate.Proofs.Markup.Guards
import Literate.Proofs.Markup.Tags

namespace Literate.Markup

open Text

variable {R : List Text → List Text → Prop} {as bs taken given : List Text} {s t : Text}
  {a c : Text}

def wholeTags : List Text := [linkEnd, "<strong>", "</strong>", "<em>", "</em>"]

/-- Pieces in which every attribute is calm and ends before the next piece of a tag. -/
inductive Shut : List Text → Prop where
  | nil : Shut []
  | plain {a : Text} {as : List Text} (plain : IsProse a ∨ a ∈ wholeTags) (later : Shut as) :
      Shut (a :: as)
  | link {address as : List Text} (calm : ∀ a ∈ address, IsCalm a) (later : Shut as) :
      Shut (linkStart :: (address ++ attributeEnd :: as))
  | image {source shown as : List Text} (calmSource : ∀ a ∈ source, IsCalm a)
      (calmShown : ∀ a ∈ shown, IsCalm a) (later : Shut as) :
      Shut (imageStart :: (source ++ altStart :: (shown ++ attributeEnd :: as)))

theorem Shut.append (has : Shut as) (hbs : Shut bs) : Shut (as ++ bs) := by
  induction has with
  | nil => exact hbs
  | plain ha _ ih => exact .plain ha ih
  | link haddress _ ih => simpa using Shut.link haddress ih
  | image hsource hshown _ ih => simpa using Shut.image hsource hshown ih

theorem shut_prose (h : ∀ a ∈ as, IsProse a) : Shut as := by
  induction as with
  | nil => exact .nil
  | cons a as ih =>
    obtain ⟨ha, has⟩ := List.forall_mem_cons.1 h
    exact .plain (.inl ha) (ih has)

theorem not_prose_of_mem_tagPieces (h : a ∈ tagPieces) : ¬ IsProse a := by
  have hlong : ∀ a ∈ tagPieces, a.length ≠ 1 ∧ a ∉ entities := by decide
  rintro (⟨c, -, rfl⟩ | hmem)
  · exact (hlong _ h).1 rfl
  · exact (hlong a h).2 hmem

theorem ne_of_prose (h : IsProse a) (hc : c ∈ tagPieces) : a ≠ c := by
  rintro rfl
  exact not_prose_of_mem_tagPieces hc h

theorem Shut.of_prose_append (h : Shut (as ++ bs)) (has : ∀ a ∈ as, IsProse a) : Shut bs := by
  induction as with
  | nil => exact h
  | cons a as ih =>
    obtain ⟨ha, has⟩ := List.forall_mem_cons.1 has
    generalize hall : a :: as ++ bs = all at h
    cases h with
    | nil => cases hall
    | plain _ later =>
      obtain ⟨rfl, rfl⟩ := List.cons.inj hall
      exact ih later has
    | link _ _ => exact absurd (List.cons.inj hall).1 (ne_of_prose ha (by decide))
    | image _ _ _ => exact absurd (List.cons.inj hall).1 (ne_of_prose ha (by decide))

/-- A hazard stands in no attribute, so what is before it and what is behind are shut. -/
theorem Shut.split (h : Shut (as ++ c :: bs)) (hc : c ∈ hazardPieces) :
    Shut as ∧ Shut (c :: bs) := by
  have hne : ∀ b ∈ tagPieces, b ≠ c := fun b hb he => tagPieces_notMem_hazardPieces hb (he ▸ hc)
  generalize hall : as ++ c :: bs = all at h
  induction h generalizing as with
  | nil => simp at hall
  | plain ha later ih =>
    cases as with
    | nil =>
      obtain ⟨rfl, rfl⟩ := List.cons.inj hall
      exact ⟨.nil, .plain ha later⟩
    | cons b as =>
      obtain ⟨rfl, hrest⟩ := List.cons.inj hall
      exact (ih hrest).imp_left (.plain ha)
  | link haddress later ih =>
    -- `c` is a piece of no tag and no attribute, so that it is shown by the link or behind it
    rcases exists_of_append_eq_append_cons [] hall.symm (hne _ (by decide)) with
      ⟨as, rfl, h₁⟩ | ⟨more, hnil, -⟩
    · rcases exists_of_append_eq_append_cons _ h₁ (hne _ (by decide)) with
        ⟨as, rfl, h₂⟩ | ⟨more, rfl, -⟩
      · exact (ih h₂.symm).imp_left (.link haddress)
      · exact absurd hc (haddress c (by simp)).2
    · simp at hnil
  | image hsource hshown later ih =>
    rcases exists_of_append_eq_append_cons [] hall.symm (hne _ (by decide)) with
      ⟨as, rfl, h₁⟩ | ⟨more, hnil, -⟩
    · rcases exists_of_append_eq_append_cons _ h₁ (hne _ (by decide)) with
        ⟨as, rfl, h₂⟩ | ⟨more, rfl, -⟩
      · rcases exists_of_append_eq_append_cons _ h₂ (hne _ (by decide)) with
          ⟨as, rfl, h₃⟩ | ⟨more, rfl, -⟩
        · exact (ih h₃.symm).imp_left (.image hsource hshown)
        · exact absurd hc (hshown c (by simp)).2
      · exact absurd hc (hsource c (by simp)).2
    · simp at hnil

theorem exists_of_append_cons_eq_append_prose (xs : List Text) {ys : List Text}
    (h : xs ++ c :: ys = as ++ bs) (hc : c ∈ tagPieces) (hbs : ∀ b ∈ bs, IsProse b) :
    ∃ more, as = xs ++ c :: more ∧ ys = more ++ bs := by
  have hnot : c ∉ bs := fun hmem => not_prose_of_mem_tagPieces hc (hbs c hmem)
  rcases List.append_eq_append_iff.1 h with ⟨more, rfl, hmore⟩ | ⟨more, rfl, rfl⟩
  · cases more with
    | nil =>
      rw [List.nil_append] at hmore
      exact absurd (hmore ▸ List.mem_cons_self) hnot
    | cons d more =>
      obtain ⟨rfl, rfl⟩ := List.cons.inj hmore
      exact ⟨more, rfl, rfl⟩
  · simp at hnot

theorem Shut.of_append_prose (h : Shut (as ++ bs)) (hbs : ∀ b ∈ bs, IsProse b) : Shut as := by
  generalize hall : as ++ bs = all at h
  induction h generalizing as with
  | nil =>
    rw [(List.append_eq_nil_iff.1 hall).1]
    exact .nil
  | plain ha later ih =>
    cases as with
    | nil => exact .nil
    | cons b as =>
      obtain ⟨rfl, hrest⟩ := List.cons.inj hall
      exact .plain ha (ih hrest)
  | link haddress later ih =>
    obtain ⟨as, rfl, h₁⟩ := exists_of_append_cons_eq_append_prose [] hall.symm (by decide) hbs
    obtain ⟨as, rfl, h₂⟩ := exists_of_append_cons_eq_append_prose _ h₁ (by decide) hbs
    exact .link haddress (ih h₂.symm)
  | image hsource hshown later ih =>
    obtain ⟨as, rfl, h₁⟩ := exists_of_append_cons_eq_append_prose [] hall.symm (by decide) hbs
    obtain ⟨as, rfl, h₂⟩ := exists_of_append_cons_eq_append_prose _ h₁ (by decide) hbs
    obtain ⟨as, rfl, h₃⟩ := exists_of_append_cons_eq_append_prose _ h₂ (by decide) hbs
    exact .image hsource hshown (ih h₃.symm)

theorem shut_images (h : Rewrites ImageStep as bs) (has : ∀ a ∈ as, IsProse a)
    (hcalm : CalmPieces as) : Shut bs := by
  induction h with
  | nil => exact .nil
  | @keep as bs a later ih =>
    obtain ⟨ha, has⟩ := List.forall_mem_cons.1 has
    have hlater : CalmPieces ([a] ++ as) := hcalm
    exact .plain (.inl ha) (ih has hlater.of_append)
  | replace here later ih =>
    obtain ⟨-, has⟩ := List.forall_mem_append.1 has
    obtain ⟨source, shown, rfl, hsource, hshown⟩ := here.calm hcalm
    simpa using Shut.image hsource hshown (ih has hcalm.of_append)

theorem link_notMem_hazardPieces {address : List Text} (haddress : ∀ a ∈ address, IsCalm a) :
    ∀ a ∈ linkStart :: (address ++ [attributeEnd]), a ∉ hazardPieces := by
  intro a ha
  simp only [List.mem_cons, List.mem_append, List.not_mem_nil, or_false] at ha
  rcases ha with rfl | ha | rfl
  · decide
  · exact (haddress a ha).2
  · decide

theorem image_notMem_hazardPieces {source shown : List Text} (hsource : ∀ a ∈ source, IsCalm a)
    (hshown : ∀ a ∈ shown, IsCalm a) :
    ∀ a ∈ imageStart :: (source ++ altStart :: (shown ++ [attributeEnd])), a ∉ hazardPieces := by
  intro a ha
  simp only [List.mem_cons, List.mem_append, List.not_mem_nil, or_false] at ha
  rcases ha with rfl | ha | rfl | ha | rfl
  · decide
  · exact (hsource a ha).2
  · decide
  · exact (hshown a ha).2
  · decide

/-- The steps of the later rules begin at hazards, which no attribute holds. `G` is what they rely
on. -/
theorem Rewrites.shut {G : List Text → Prop} (hG : ∀ as bs, G (as ++ bs) → G bs)
    (hstart : ∀ taken given, R taken given → ∃ c rest, taken = c :: rest ∧ c ∈ hazardPieces)
    (hstep : ∀ taken given as, R taken given → G (taken ++ as) → Shut (taken ++ as) →
      Shut as ∧ ∀ bs, Shut bs → Shut (given ++ bs))
    (h : Rewrites R as bs) (hcalm : G as) (has : Shut as) : Shut bs := by
  induction hn : as.length using Nat.strongRecOn generalizing as bs with
  | ind n ih =>
  -- the pieces of a tag with attributes are passed over at once
  have hpass : ∀ (c : Text) (tag later : List Text), (∀ a ∈ c :: tag, a ∉ hazardPieces) →
      Shut later → (∀ bs, Shut bs → Shut ((c :: tag) ++ bs)) → as = (c :: tag) ++ later →
      Shut bs := by
    rintro c tag later hnone hlater hshut rfl
    obtain ⟨bs, rfl, hrest⟩ := h.append_left fun taken given hR => by
      obtain ⟨d, rest, rfl, hd⟩ := hstart taken given hR
      exact ⟨d, rest, rfl, fun hmem => hnone d hmem hd⟩
    have hshorter : later.length < n := by
      rw [← hn, List.length_append, List.length_cons]
      omega
    exact hshut bs (ih _ hshorter hrest (hG _ _ hcalm) hlater rfl)
  cases has with
  | nil =>
    generalize hnil : ([] : List Text) = as at h
    cases h with
    | nil => exact .nil
    | keep a later => cases hnil
    | replace here later =>
      obtain ⟨c, rest, rfl, -⟩ := hstart _ _ here
      cases hnil
  | @plain a as ha later =>
    rcases h.cons_left with ⟨bs, rfl, hlater⟩ | ⟨taken, given, as', bs', hR, hsplit, rfl, hlater⟩
    · exact .plain ha (ih as.length (by simp at hn; omega) hlater (hG [a] as hcalm) later rfl)
    · have hall : Shut (taken ++ as') := hsplit ▸ .plain ha later
      have hcalm' : G (taken ++ as') := hsplit ▸ hcalm
      obtain ⟨has', hgiven⟩ := hstep taken given as' hR hcalm' hall
      have hshorter : as'.length < n := by
        obtain ⟨c, rest, rfl, -⟩ := hstart taken given hR
        rw [← hn, hsplit, List.cons_append, List.length_cons, List.length_append]
        omega
      exact hgiven bs' (ih _ hshorter hlater (hG _ _ hcalm') has' rfl)
  | link haddress later =>
    refine hpass _ _ _ (link_notMem_hazardPieces haddress) later (fun bs hbs => ?_) (by simp)
    simpa using Shut.link haddress hbs
  | image hsource hshown later =>
    refine hpass _ _ _ (image_notMem_hazardPieces hsource hshown) later (fun bs hbs => ?_)
      (by simp)
    simpa using Shut.image hsource hshown hbs

theorem prose_chars (h : ∀ c ∈ s, c ∉ markupCharacters) : ∀ a ∈ chars s, IsProse a := by
  intro a ha
  obtain ⟨c, hc, rfl⟩ := List.mem_map.1 ha
  exact .inl ⟨c, h c hc, rfl⟩

theorem prose_of_blank {c : Char} (h : isBlankChar c = true) : IsProse [c] := by
  refine .inl ⟨c, fun hmem => ?_, rfl⟩
  have hmarkup : ∀ c ∈ markupCharacters, isBlankChar c = false := by decide
  rw [hmarkup c hmem] at h
  cases h

theorem LinkStep.shut {later : List Text} (h : LinkStep taken given)
    (hcalm : CalmLinks (taken ++ later)) (hshut : Shut (taken ++ later)) :
    Shut later ∧ ∀ bs, Shut bs → Shut (given ++ bs) := by
  obtain ⟨label, target, front, shown, back, rfl, rfl, rfl, hblank, htarget⟩ := h.calm hcalm
  have hends : ∀ a ∈ front ++ back, IsProse a := by
    intro a ha
    obtain ⟨c, hc, rfl⟩ := hblank a ha
    exact prose_of_blank hc
  obtain ⟨hfront, hback⟩ := List.forall_mem_append.1 hends
  have hsplit :
      chars "[" ++ (front ++ (shown ++ back)) ++ chars "](" ++ target ++ chars ")" ++ later =
        (chars "[" ++ front) ++
          ((shown ++ back) ++ [']'] :: ([['(']] ++ target ++ chars ")" ++ later)) := by
    simp [chars]
  rw [hsplit] at hshut
  have hopen : ∀ a ∈ chars "[" ++ front, IsProse a :=
    List.forall_mem_append.2 ⟨prose_chars (by decide), hfront⟩
  -- the link is cut at the bracket that closes its label, which no attribute holds
  obtain ⟨hlabel, hbehind⟩ := (hshut.of_prose_append hopen).split (by decide)
  have hclose : ∀ a ∈ chars "](" ++ (target ++ chars ")"), IsProse a :=
    List.forall_mem_append.2 ⟨prose_chars (by decide),
      List.forall_mem_append.2 ⟨fun a ha => (htarget a ha).1, prose_chars (by decide)⟩⟩
  have hlater : Shut later := by
    refine Shut.of_prose_append ?_ hclose
    simpa [chars] using hbehind
  have hshown : Shut shown := hlabel.of_append_prose hback
  refine ⟨hlater, fun bs hbs => ?_⟩
  have hend : Shut (shown ++ linkEnd :: bs) := hshown.append (.plain (.inr (by decide)) hbs)
  simpa using Shut.link htarget hend

theorem AddressStep.shut {later : List Text} (h : AddressStep taken given)
    (hcalm : CalmBehind addressStart insideAddress (taken ++ later))
    (hshut : Shut (taken ++ later)) : Shut later ∧ ∀ bs, Shut bs → Shut (given ++ bs) := by
  cases h with
  | @intro address scheme unbroken unclosed =>
    obtain ⟨behind, rfl⟩ := scheme
    have hsplit : [escapedOpen] ++ (chars "http" ++ behind) ++ [escapedClose] ++ later =
        [] ++ (addressStart ++ (behind ++ ([escapedClose] ++ later))) := by
      simp [addressStart]
    have hinside : ∀ a ∈ behind, insideAddress a = true := by
      intro a ha
      exact bne_iff_ne.2 fun he => unclosed (he ▸ List.mem_append_right _ ha)
    -- the address becomes an attribute as it is, so that all of it has to be calm
    have hbehind : ∀ a ∈ behind, IsCalm a := calm_of_inside hinside (hcalm _ _ hsplit)
    have hscheme : ∀ a ∈ chars "http", IsCalm a := by
      intro a ha
      exact ⟨prose_chars (by decide) a ha,
        (by decide : ∀ a ∈ chars "http", a ∉ hazardPieces) a ha⟩
    have haddress : ∀ a ∈ chars "http" ++ behind, IsCalm a :=
      List.forall_mem_append.2 ⟨hscheme, hbehind⟩
    have hprose : ∀ a ∈ [escapedOpen] ++ (chars "http" ++ behind) ++ [escapedClose], IsProse a := by
      intro a ha
      simp only [List.mem_append, List.mem_singleton] at ha
      rcases ha with (rfl | ha) | rfl
      · exact .inr (by decide)
      · exact (haddress a (List.mem_append.2 ha)).1
      · exact .inr (by decide)
    refine ⟨hshut.of_prose_append hprose, fun bs hbs => ?_⟩
    have hshown : Shut ((chars "http" ++ behind) ++ linkEnd :: bs) :=
      (shut_prose fun a ha => (haddress a ha).1).append (.plain (.inr (by decide)) hbs)
    simpa using Shut.link haddress hshown

theorem MarkStep.shut {marks : List Text} {tag : Text} {later : List Text}
    (h : MarkStep marks tag taken given)
    (hmarks : ∀ mark ∈ marks, mark ≠ [] ∧ ∀ a ∈ chars mark, a ∈ hazardPieces)
    (htag : "<" ++ tag ++ ">" ∈ wholeTags ∧ "</" ++ tag ++ ">" ∈ wholeTags)
    (hshut : Shut (taken ++ later)) : Shut later ∧ ∀ bs, Shut bs → Shut (given ++ bs) := by
  cases h with
  | @intro mark content isMark =>
    obtain ⟨hne, hhazards⟩ := hmarks mark isMark
    have hprose : ∀ a ∈ chars mark, IsProse a := fun a ha => hazardPieces_prose (hhazards a ha)
    rw [List.append_assoc, List.append_assoc] at hshut
    have hinner : Shut (content ++ (chars mark ++ later)) := hshut.of_prose_append hprose
    obtain ⟨c, mark, rfl⟩ := List.exists_cons_of_ne_nil hne
    obtain ⟨hcontent, hmark⟩ := Shut.split (c := [c]) hinner (hhazards _ (by simp [chars]))
    have hlater : Shut (chars (c :: mark) ++ later) := hmark
    refine ⟨hlater.of_prose_append hprose, fun bs hbs => ?_⟩
    have hend : Shut (content ++ ("</" ++ tag ++ ">") :: bs) :=
      hcontent.append (.plain (.inr htag.2) hbs)
    simpa using Shut.plain (.inr htag.1) hend

theorem shut_marks {marks : List Text} {tag : Text} (h : Rewrites (MarkStep marks tag) as bs)
    (hmarks : ∀ mark ∈ marks, mark ≠ [] ∧ ∀ a ∈ chars mark, a ∈ hazardPieces)
    (htag : "<" ++ tag ++ ">" ∈ wholeTags ∧ "</" ++ tag ++ ">" ∈ wholeTags) (has : Shut as) :
    Shut bs := by
  refine Rewrites.shut (G := fun _ => True) (fun _ _ h => h) ?_
    (fun _ _ _ hstep _ => hstep.shut hmarks htag) h trivial has
  intro taken given hstep
  cases hstep with
  | @intro mark content isMark =>
    obtain ⟨hne, hhazards⟩ := hmarks mark isMark
    obtain ⟨c, mark, rfl⟩ := List.exists_cons_of_ne_nil hne
    exact ⟨[c], _, rfl, hhazards _ (by simp [chars])⟩

theorem Formats.shut {images links addresses strongs out : List Text}
    (h : Formats s images links addresses strongs out) (hcalm : Calm s) : Shut out := by
  have hprose : ∀ a ∈ s.map escapeChar, IsProse a := by
    intro a ha
    obtain ⟨c, -, rfl⟩ := List.mem_map.1 ha
    exact isProse_escapeChar c
  have himages : Shut images := shut_images h.image hprose hcalm.pieces
  have hlinksCalm : CalmLinks images := image_calmLinks h.image hcalm.pieces
  have hlinks : Shut links := by
    refine Rewrites.shut (G := CalmLinks) (fun _ _ => CalmLinks.of_append) ?_
      (fun _ _ _ hstep => hstep.shut) h.link hlinksCalm himages
    intro taken given hstep
    obtain ⟨⟨rest, rfl⟩, -⟩ := hstep.exists_start
    exact ⟨['['], rest, rfl, by decide⟩
  have haddresses : Shut addresses := by
    refine Rewrites.shut (G := CalmBehind addressStart insideAddress)
      (fun _ _ => CalmBehind.of_append) ?_ (fun _ _ _ hstep => hstep.shut) h.address
      (link_calmAddress h.link hlinksCalm) hlinks
    intro taken given hstep
    cases hstep with
    | @intro address _ _ _ => exact ⟨escapedOpen, address ++ [escapedClose], rfl, by decide⟩
  have hstrongs : Shut strongs := shut_marks h.strong (by decide) (by decide) haddresses
  exact shut_marks h.emphasis (by decide) (by decide) hstrongs

/-- What an attribute may hold: nothing that ends it or that ends its tag. -/
def IsValue (v : Text) : Prop := ∀ c ∈ v, c ≠ '<' ∧ c ≠ '>' ∧ c ≠ '"'

def lineTags : List Text := wholeTags ++ (["<code>", "</code>"] : List Text)

/-- A text made of plain characters and of whole tags. -/
inductive AttributesShut : Text → Prop where
  | nil : AttributesShut []
  | plain {c : Char} {s : Text} (plain : c ≠ '<' ∧ c ≠ '>') (later : AttributesShut s) :
      AttributesShut (c :: s)
  | tag {tag s : Text} (mem : tag ∈ lineTags) (later : AttributesShut s) :
      AttributesShut (tag ++ s)
  | link {address s : Text} (value : IsValue address) (later : AttributesShut s) :
      AttributesShut (linkStart ++ (address ++ (attributeEnd ++ s)))
  | image {source description s : Text} (source_value : IsValue source)
      (description_value : IsValue description) (later : AttributesShut s) :
      AttributesShut (imageStart ++ (source ++ (altStart ++ (description ++ (attributeEnd ++ s)))))

theorem AttributesShut.append (hs : AttributesShut s) (ht : AttributesShut t) :
    AttributesShut (s ++ t) := by
  induction hs with
  | nil => exact ht
  | plain hc _ ih => exact .plain hc ih
  | tag hmem _ ih => simpa only [List.append_assoc] using AttributesShut.tag hmem ih
  | link hvalue _ ih => simpa only [List.append_assoc] using AttributesShut.link hvalue ih
  | image hsource hdescription _ ih =>
    simpa only [List.append_assoc] using AttributesShut.image hsource hdescription ih

theorem attributesShut_plain (h : ∀ c ∈ s, c ≠ '<' ∧ c ≠ '>') : AttributesShut s := by
  induction s with
  | nil => exact .nil
  | cons c s ih =>
    obtain ⟨hc, hs⟩ := List.forall_mem_cons.1 h
    exact .plain hc (ih hs)

theorem IsProse.isValue (h : IsProse a) : IsValue a := by
  rcases h with ⟨c, hc, rfl⟩ | hmem
  · simp only [markupCharacters, List.mem_cons, not_or] at hc
    exact List.forall_mem_singleton.2 ⟨hc.1, hc.2.1, hc.2.2.2.1⟩
  · exact (by decide : ∀ a ∈ entities, ∀ c ∈ a, c ≠ '<' ∧ c ≠ '>' ∧ c ≠ '"') a hmem

theorem isValue_flatten (h : ∀ a ∈ as, IsCalm a) : IsValue as.flatten := by
  intro c hc
  obtain ⟨a, ha, hca⟩ := List.mem_flatten.1 hc
  exact (h a ha).1.isValue c hca

theorem Shut.attributesShut (h : Shut as) : AttributesShut as.flatten := by
  induction h with
  | nil => exact .nil
  | plain ha _ ih =>
    rw [List.flatten_cons]
    rcases ha with ha | ha
    · have hplain : AttributesShut _ :=
        attributesShut_plain fun c hc => ⟨(ha.isValue c hc).1, (ha.isValue c hc).2.1⟩
      exact hplain.append ih
    · exact .tag (List.mem_append_left _ ha) ih
  | link haddress _ ih =>
    have hlink := AttributesShut.link (isValue_flatten haddress) ih
    simpa only [List.flatten_cons, List.flatten_append] using hlink
  | image hsource hshown _ ih =>
    have himage := AttributesShut.image (isValue_flatten hsource) (isValue_flatten hshown) ih
    simpa only [List.flatten_cons, List.flatten_append] using himage

theorem formatProse_attributesShut (h : Calm s) : AttributesShut (formatProse s) := by
  obtain ⟨images, links, addresses, strongs, out, hformats, hout⟩ := exists_formats s
  rw [hout]
  exact (hformats.shut h).attributesShut

theorem spans_infix (skip : Nat) (s : Text) :
    (spans skip s).1 <+: s.drop skip ∧ ∀ span ∈ (spans skip s).2, span.2 <:+: s := by
  induction s generalizing skip with
  | nil => simp [spans]
  | cons c s ih =>
    have hlater : ∀ skip, ∀ span ∈ (spans skip s).2, span.2 <:+: c :: s :=
      fun skip span hspan => ((ih skip).2 span hspan).trans (List.suffix_cons c s).isInfix
    rw [spans]
    split
    · next hskip =>
      obtain ⟨k, rfl⟩ : ∃ k, skip = k + 1 := ⟨skip - 1, by omega⟩
      exact ⟨(ih k).1, hlater k⟩
    · next hskip =>
      obtain rfl : skip = 0 := by omega
      split
      · next code n hcode =>
        refine ⟨List.nil_prefix, List.forall_mem_cons.2 ⟨?_, hlater (n - 1)⟩⟩
        have hbehind : (spans (n - 1) s).1 <:+: s :=
          (ih (n - 1)).1.isInfix.trans (List.drop_suffix _ s).isInfix
        exact hbehind.trans (List.suffix_cons c s).isInfix
      · exact ⟨(List.prefix_cons_inj c).2 (ih 0).1, hlater 0⟩

theorem mem_takeWhile_append {within : Char → Bool} {c : Char} (h : c ∈ s.takeWhile within)
    (t : Text) : c ∈ (s ++ t).takeWhile within := by
  rw [List.takeWhile_append]
  split
  · exact List.mem_append_left _ (List.takeWhile_subset _ h)
  · exact h

theorem Guarded.of_infix {opening : Text} {within : Char → Bool} (h : Guarded opening within t)
    (hst : s <:+: t) : Guarded opening within s := by
  obtain ⟨front, back, rfl⟩ := hst
  intro u hu rest hrest c hc
  obtain ⟨before, rfl⟩ := (List.mem_tails _ _).1 hu
  obtain rfl := afterPrefix?_eq_some hrest
  have hsuffix :
      opening ++ (rest ++ back) ∈ (front ++ (before ++ (opening ++ rest)) ++ back).tails := by
    rw [List.mem_tails]
    exact ⟨front ++ before, by simp⟩
  exact h _ hsuffix _ (afterPrefix?_append _ _) c (mem_takeWhile_append hc back)

theorem Calm.of_infix (h : Calm t) (hst : s <:+: t) : Calm s :=
  ⟨h.target.of_infix hst, h.description.of_infix hst, h.address.of_infix hst⟩

theorem codeElement_attributesShut (code : Text) : AttributesShut (codeElement code) := by
  have hstart : ("<" ++ "code" ++ ">" : Text) = "<code>" := by decide
  have hend : ("</" ++ "code" ++ ">" : Text) = "</code>" := by decide
  have hplain : AttributesShut (escapeContent (trim code)) :=
    attributesShut_plain fun _ => ne_bracket_of_mem_escapeContent
  have hclosed : AttributesShut (("</code>" : Text) ++ []) := .tag (by decide) .nil
  have hwhole : AttributesShut (("<code>" : Text) ++
      (escapeContent (trim code) ++ (("</code>" : Text) ++ []))) :=
    .tag (by decide) (hplain.append hclosed)
  rw [← hstart, ← hend, List.append_nil] at hwhole
  simpa only [codeElement, element, List.append_assoc] using hwhole

/-- The HTML of a calm line is plain text and whole tags, and no attribute holds a bracket or a
quotation mark. -/
theorem inlineHtml_attributesShut (text : Text) (h : Calm text) :
    AttributesShut (inlineHtml text) := by
  obtain ⟨hprose, hspans⟩ := spans_infix 0 text
  have hfirst : AttributesShut (formatProse (spans 0 text).1) :=
    formatProse_attributesShut (h.of_infix hprose.isInfix)
  refine hfirst.append ?_
  generalize (spans 0 text).2 = spans at hspans
  induction spans with
  | nil => exact .nil
  | cons span spans ih =>
    obtain ⟨hspan, hspans⟩ := List.forall_mem_cons.1 hspans
    have hbehind : AttributesShut (formatProse span.2) :=
      formatProse_attributesShut (h.of_infix hspan)
    exact ((codeElement_attributesShut span.1).append hbehind).append (ih hspans)

instance (s : Text) : Decidable (Calm s) :=
  decidable_of_iff (Guarded "](" (fun c => c != ')' && !isBlankChar c) s ∧
    Guarded "![" (· != ']') s ∧ Guarded "<http" (· != '>') s)
    ⟨fun h => ⟨h.1, h.2.1, h.2.2⟩, fun h => ⟨h.target, h.description, h.address⟩⟩

theorem inlineHtml_attributesShut_links :
    Calm "[*a*](b) ![c](d) <http://e> **f**" ∧
      AttributesShut (inlineHtml "[*a*](b) ![c](d) <http://e> **f**") := by
  have hcalm : Calm "[*a*](b) ![c](d) <http://e> **f**" := by decide
  exact ⟨hcalm, inlineHtml_attributesShut _ hcalm⟩

theorem AttributesShut.exists_address (h : AttributesShut (linkStart ++ s)) :
    ∃ address rest, s = address ++ (attributeEnd ++ rest) ∧ IsValue address := by
  have hapart : ∀ tag ∈ imageStart :: lineTags, ¬ (tag <+: linkStart ∨ linkStart <+: tag) := by
    decide
  have hnot : ∀ tag ∈ imageStart :: lineTags, ∀ rest, tag ++ rest ≠ linkStart ++ s :=
    fun tag htag rest he => hapart tag htag
      (List.prefix_or_prefix_of_prefix ⟨rest, he⟩ (List.prefix_append _ _))
  generalize hall : linkStart ++ s = all at h
  cases h with
  | nil => cases hall
  | plain hc later => exact absurd (List.cons.inj hall).1.symm hc.1
  | tag hmem later => exact absurd hall.symm (hnot _ (List.mem_cons_of_mem _ hmem) _)
  | link hvalue later => exact ⟨_, _, List.append_cancel_left hall, hvalue⟩
  | image _ _ later => exact absurd hall.symm (hnot _ List.mem_cons_self _)

/-- Emphasis in the target of a link becomes an element in its attribute. -/
theorem attribute_holds_tag : ¬ AttributesShut (inlineHtml "[a](*b*)") := by
  have hhtml : inlineHtml "[a](*b*)" = linkStart ++ "<em>b</em>\">a</a>" := by decide +kernel
  rw [hhtml]
  intro h
  obtain ⟨address, rest, hs, hvalue⟩ := h.exists_address
  cases address with
  | nil => exact absurd (List.cons.inj hs).1 (by decide)
  | cons c address =>
    obtain rfl : '<' = c := (List.cons.inj hs).1
    exact (hvalue '<' List.mem_cons_self).1 rfl

end Literate.Markup
