/-
# The order of members does not matter

The members of an object are read one after the other, and what is wrong first decides.
Where nothing is wrong the order is of no account: a field that is read knows nothing of the
others.

## What is proved

`exists_foldlM_perm`: steps of which any two can be exchanged lead from the same state to
the same one in every order, up to a relation that the steps keep.  Members are such steps
when the fields of the record are independent (`Independent`, `learnMembers_perm`).

`Reordered v w` says that `w` is `v` with the members of its objects, at any depth, in
another order.  `gives_record` and `gives_list` bring the order in: a value that is read as
`a` in the order in which it is written is read as `a` in every order (`Gives`).
-/
import EventReport.Json.Record
import EventReport.Proofs.Json.Text

namespace EventReport

/-! ## Steps in any order -/

section Steps

variable {α β σ μ ε : Type} {step : σ → μ → Except ε σ} {R : σ → σ → Prop}

theorem bind_eq_ok_iff {x : Except ε α} {f : α → Except ε β} {b : β} :
    x >>= f = .ok b ↔ ∃ a, x = .ok a ∧ f a = .ok b := by
  cases x with
  | error e => exact ⟨nofun, nofun⟩
  | ok a => simp [bind, Except.bind]

theorem foldlM_cons_eq_ok_iff {m : μ} {ms : List μ} {s t : σ} :
    (m :: ms).foldlM step s = .ok t ↔ ∃ u, step s m = .ok u ∧ ms.foldlM step u = .ok t := by
  rw [List.foldlM_cons, bind_eq_ok_iff]

/-- A run goes the same way from related states. -/
theorem exists_foldlM_related
    (hstep : ∀ {s s' m t}, R s s' → step s m = .ok t → ∃ t', step s' m = .ok t' ∧ R t t')
    {ms : List μ} {s s' t : σ} (hs : R s s') (hrun : ms.foldlM step s = .ok t) :
    ∃ t', ms.foldlM step s' = .ok t' ∧ R t t' := by
  induction ms generalizing s s' with
  | nil =>
    obtain rfl := Except.ok.inj hrun
    exact ⟨s', rfl, hs⟩
  | cons m ms ih =>
    obtain ⟨u, hm, hrun⟩ := foldlM_cons_eq_ok_iff.1 hrun
    obtain ⟨u', hm', hu⟩ := hstep hs hm
    obtain ⟨t', hrun', ht⟩ := ih hu hrun
    exact ⟨t', foldlM_cons_eq_ok_iff.2 ⟨u', hm', hrun'⟩, ht⟩

/-- It leads to a related state if its steps are taken in another order and any two of them can be
exchanged. -/
theorem exists_foldlM_perm (hrefl : ∀ s, R s s) (htrans : ∀ {s t u}, R s t → R t u → R s u)
    (hstep : ∀ {s s' m t}, R s s' → step s m = .ok t → ∃ t', step s' m = .ok t' ∧ R t t')
    (hswap : ∀ {s m n t u}, step s m = .ok t → step t n = .ok u →
      ∃ t' u', step s n = .ok t' ∧ step t' m = .ok u' ∧ R u u')
    {ms ns : List μ} (h : ms.Perm ns) {s t : σ} (hrun : ms.foldlM step s = .ok t) :
    ∃ t', ns.foldlM step s = .ok t' ∧ R t t' := by
  induction h generalizing s t with
  | nil => exact ⟨t, hrun, hrefl t⟩
  | cons m _ ih =>
    obtain ⟨u, hm, hrun⟩ := foldlM_cons_eq_ok_iff.1 hrun
    obtain ⟨t', hrun', ht⟩ := ih hrun
    exact ⟨t', foldlM_cons_eq_ok_iff.2 ⟨u, hm, hrun'⟩, ht⟩
  | swap m n ms =>
    obtain ⟨u, hn, hrun⟩ := foldlM_cons_eq_ok_iff.1 hrun
    obtain ⟨v, hm, hrun⟩ := foldlM_cons_eq_ok_iff.1 hrun
    obtain ⟨u', v', hm', hn', hv⟩ := hswap hn hm
    obtain ⟨t', hrun', ht⟩ := exists_foldlM_related hstep hv hrun
    exact ⟨t', foldlM_cons_eq_ok_iff.2 ⟨u', hm', foldlM_cons_eq_ok_iff.2 ⟨v', hn', hrun'⟩⟩, ht⟩
  | trans _ _ ih ih' =>
    obtain ⟨u, hrun, hu⟩ := ih hrun
    obtain ⟨t', hrun, ht⟩ := ih' hrun
    exact ⟨t', hrun, htrans hu ht⟩

end Steps

namespace Json

/-! ## Fields that know nothing of each other -/

section Fields

variable {V σ : Type}

/-- Learning the one field does not show in the other, and they may be learnt in either order. -/
structure Field.Ignores (f g : Field V σ) : Prop where
  isKnown : ∀ {s v t}, f.learn s v = .ok t → g.isKnown t = g.isKnown s
  exchange : ∀ {s v t w u}, f.learn s v = .ok t → g.learn t w = .ok u →
    ∃ t', g.learn s w = .ok t' ∧ f.learn t' v = .ok u

/-- A field is known once it is learnt. -/
def Field.Remembers (f : Field V σ) : Prop := ∀ s v t, f.learn s v = .ok t → f.isKnown t = true

/-- The fields of a record, which know nothing of each other. -/
structure Independent (fields : List (Field V σ)) : Prop where
  remembers : ∀ f ∈ fields, f.Remembers
  ignores : fields.Pairwise fun f g => f.Ignores g ∧ g.Ignores f

theorem Independent.ignores_of_ne {fields : List (Field V σ)} (h : Independent fields)
    {f g : Field V σ} (hf : f ∈ fields) (hg : g ∈ fields) (hne : f ≠ g) :
    f.Ignores g ∧ g.Ignores f := by
  have : Std.Symm fun f g : Field V σ => f.Ignores g ∧ g.Ignores f := ⟨fun _ _ h => h.symm⟩
  exact h.ignores.forall hf hg hne

section At

variable {α β : Type} {name name' : String} {place : σ → Option α} {place' : σ → Option β}
  {put : σ → α → σ} {put' : σ → β → σ} {decode : V → Decoded α} {decode' : V → Decoded β}

theorem Field.learn_at_eq_ok_iff {s t : σ} {v : V} :
    (Field.at name place put decode).learn s v = .ok t ↔ ∃ a, decode v = .ok a ∧ put s a = t := by
  show (decode v).map (put s) = .ok t ↔ _
  cases decode v with
  | error e => exact ⟨nofun, nofun⟩
  | ok a => simp [Except.map]

theorem Field.remembers_at (hput : ∀ s a, place (put s a) = some a) :
    (Field.at name place put decode).Remembers := by
  intro s v t h
  obtain ⟨a, -, rfl⟩ := learn_at_eq_ok_iff.1 h
  show (place (put s a)).isSome = true
  rw [hput]
  rfl

/-- Two fields are kept apart if they are kept in places of their own. -/
theorem Field.ignores_at (hplace : ∀ s a, place' (put s a) = place' s)
    (hput : ∀ s a b, put' (put s a) b = put (put' s b) a) :
    (Field.at name place put decode).Ignores (Field.at name' place' put' decode') where
  isKnown := by
    intro s v t h
    obtain ⟨a, -, rfl⟩ := learn_at_eq_ok_iff.1 h
    show (place' (put s a)).isSome = (place' s).isSome
    rw [hplace]
  exchange := by
    intro s v t w u h h'
    obtain ⟨a, ha, rfl⟩ := learn_at_eq_ok_iff.1 h
    obtain ⟨b, hb, rfl⟩ := learn_at_eq_ok_iff.1 h'
    exact ⟨put' s b, learn_at_eq_ok_iff.2 ⟨b, hb, rfl⟩,
      learn_at_eq_ok_iff.2 ⟨a, ha, (hput s a b).symm⟩⟩

end At

/-- What is done with one member. -/
def learnMember (ignorable : V → Bool) (fields : List (Field V σ)) (s : σ) (m : String × V) :
    Decoded σ :=
  match fields.find? (·.name == m.1) with
  | some field => if field.isKnown s then .error (.duplicateField m.1) else field.learn s m.2
  | none => if ignorable m.2 then .ok s else .error .malformed

theorem learnMembers_eq_foldlM (ignorable : V → Bool) (fields : List (Field V σ)) (s : σ)
    (ms : List (String × V)) :
    learnMembers ignorable fields s ms = ms.foldlM (learnMember ignorable fields) s := by
  induction ms generalizing s with
  | nil => rfl
  | cons m ms ih =>
    obtain ⟨name, v⟩ := m
    rw [learnMembers, List.foldlM_cons, learnMember]
    cases fields.find? (·.name == name) with
    | none => cases ignorable v <;> simp [ih, bind, Except.bind]
    | some f => cases hf : f.isKnown s <;> simp [hf, ih, bind, Except.bind]

section Perm

variable {ignorable : V → Bool} {fields : List (Field V σ)}

/-- A member is that of a field which is not known yet, or is passed over. -/
theorem learnMember_eq_ok_iff {s t : σ} {m : String × V} :
    learnMember ignorable fields s m = .ok t ↔
      (∃ f, fields.find? (·.name == m.1) = some f ∧ f.isKnown s = false ∧ f.learn s m.2 = .ok t) ∨
        (fields.find? (·.name == m.1) = none ∧ ignorable m.2 = true ∧ s = t) := by
  rw [learnMember]
  cases fields.find? (·.name == m.1) with
  | none => cases ignorable m.2 <;> simp
  | some f => cases hf : f.isKnown s <;> simp [hf]

theorem learnMember_exchange (h : Independent fields) {s t u : σ} {m n : String × V}
    (hm : learnMember ignorable fields s m = .ok t)
    (hn : learnMember ignorable fields t n = .ok u) :
    ∃ t', learnMember ignorable fields s n = .ok t' ∧
      learnMember ignorable fields t' m = .ok u := by
  simp only [learnMember_eq_ok_iff] at hm hn ⊢
  rcases hm with ⟨f, hf, hfs, hlearn⟩ | ⟨hf, hignorable, rfl⟩
  · rcases hn with ⟨g, hg, hgt, hlearn'⟩ | ⟨hg, hignorable, rfl⟩
    · have hne : f ≠ g := by
        rintro rfl
        rw [h.remembers f (List.mem_of_find?_eq_some hf) _ _ _ hlearn] at hgt
        cases hgt
      obtain ⟨hfg, hgf⟩ := h.ignores_of_ne (List.mem_of_find?_eq_some hf)
        (List.mem_of_find?_eq_some hg) hne
      obtain ⟨t', hlearn', hlearn''⟩ := hfg.exchange hlearn hlearn'
      refine ⟨t', .inl ⟨g, hg, ?_, hlearn'⟩, .inl ⟨f, hf, ?_, hlearn''⟩⟩
      · rw [← hfg.isKnown hlearn, hgt]
      · rw [hgf.isKnown hlearn', hfs]
    · exact ⟨s, .inr ⟨hg, hignorable, rfl⟩, .inl ⟨f, hf, hfs, hlearn⟩⟩
  · exact ⟨u, hn, .inr ⟨hf, hignorable, rfl⟩⟩

/-- Members that are read in one order are read in every other, with the same result. -/
theorem learnMembers_perm (h : Independent fields) {ms ns : List (String × V)}
    (hperm : ms.Perm ns) {s t : σ} (hlearn : learnMembers ignorable fields s ms = .ok t) :
    learnMembers ignorable fields s ns = .ok t := by
  rw [learnMembers_eq_foldlM] at hlearn ⊢
  obtain ⟨t', hrun, rfl⟩ := exists_foldlM_perm (R := Eq) (fun _ => rfl) Eq.trans
    (fun hs hstep => ⟨_, hs ▸ hstep, rfl⟩)
    (fun hm hn => by
      obtain ⟨t', hn, hm⟩ := learnMember_exchange h hm hn
      exact ⟨t', _, hn, hm, rfl⟩) hperm hlearn
  exact hrun

theorem ofMembers_perm {α : Type} {finish : σ → Decoded α} {a : α} (h : Independent fields)
    {ms ns : List (String × V)} (hperm : ms.Perm ns) {s : σ}
    (hms : ofMembers ignorable fields s finish ms = .ok a) :
    ofMembers ignorable fields s finish ns = .ok a := by
  obtain ⟨t, hlearn, hfinish⟩ := bind_eq_ok_iff.1 hms
  exact bind_eq_ok_iff.2 ⟨t, learnMembers_perm h hperm hlearn, hfinish⟩

end Perm

end Fields

/-! ## Members in another order -/

mutual

/-- The second value is the first one with the members of its objects in any order. -/
def Reordered : Json → Json → Prop
  | arr items => fun w => ∃ items', w = arr items' ∧ ReorderedItems items items'
  | obj members => fun w =>
    ∃ members' members'', w = obj members'' ∧ ReorderedMembers members members' ∧
      members'.Perm members''
  | v => fun w => w = v

def ReorderedItems : List Json → List Json → Prop
  | [] => fun items => items = []
  | v :: vs => fun items => ∃ w ws, items = w :: ws ∧ Reordered v w ∧ ReorderedItems vs ws

def ReorderedMembers : List (String × Json) → List (String × Json) → Prop
  | [] => fun members => members = []
  | (name, v) :: ms => fun members =>
    ∃ w ns, members = (name, w) :: ns ∧ Reordered v w ∧ ReorderedMembers ms ns

end

mutual

theorem Reordered.refl : ∀ v : Json, Reordered v v
  | null | bool _ | int _ | float _ | str _ | fault _ | unnamed _ => rfl
  | arr items => ⟨items, rfl, ReorderedItems.refl items⟩
  | obj members => ⟨members, members, rfl, ReorderedMembers.refl members, .refl members⟩

theorem ReorderedItems.refl : ∀ vs : List Json, ReorderedItems vs vs
  | [] => rfl
  | v :: vs => ⟨v, vs, rfl, Reordered.refl v, ReorderedItems.refl vs⟩

theorem ReorderedMembers.refl : ∀ ms : List (String × Json), ReorderedMembers ms ms
  | [] => rfl
  | (_, v) :: ms => ⟨v, ms, rfl, Reordered.refl v, ReorderedMembers.refl ms⟩

end

/-- Texts have no members of their own. -/
theorem eq_of_reorderedMembers {ms ns : List (String × Json)} (h : ReorderedMembers ms ns)
    (hms : ∀ m ∈ ms, ∃ s, m.2 = str s) : ns = ms := by
  induction ms generalizing ns with
  | nil => exact h
  | cons m ms ih =>
    obtain ⟨name, v⟩ := m
    obtain ⟨w, ns, rfl, hw, hns⟩ := h
    obtain ⟨⟨s, rfl⟩, htexts⟩ := List.forall_mem_cons.1 hms
    obtain rfl : w = str s := hw
    rw [ih hns htexts]

/-- Whatever the order of members, the value is read as `a`. -/
def Gives {α : Type} (decode : Json → Decoded α) (v : Json) (a : α) : Prop :=
  ∀ w, Reordered v w → decode w = .ok a

section Gives

variable {α : Type} {decode : Json → Decoded α}

theorem gives_string (s : String) : Gives decodeString (.str s) s := by
  rintro _ rfl
  rfl

theorem gives_list {encode : α → Json} {as : List α}
    (h : ∀ a ∈ as, Gives decode (encode a) a) :
    Gives (decodeList decode) (.arr (as.map encode)) as := by
  rintro _ ⟨items, rfl, hitems⟩
  show decodeItems decode items = .ok as
  induction as generalizing items with
  | nil =>
    obtain rfl : items = [] := hitems
    rfl
  | cons a as ih =>
    obtain ⟨w, ws, rfl, hw, hws⟩ := hitems
    obtain ⟨ha, has⟩ := List.forall_mem_cons.1 h
    rw [decodeItems, ha w hw, ih has ws hws]
    rfl

theorem gives_null : Gives (decodeOption decode) .null none := by
  rintro _ rfl
  rfl

/-- A value that is not null is read as it is where it may be null. -/
theorem gives_option {v : Json} {a : α} (hnull : ∀ b, decode .null ≠ .ok b)
    (h : Gives decode v a) : Gives (decodeOption decode) v (some a) := by
  intro w hw
  have hw := h w hw
  cases w with
  | null => exact absurd hw (hnull a)
  | _ =>
    show (decode _).map some = .ok (some a)
    rw [hw]
    rfl

/-- A value that is left out is written as null. -/
theorem gives_optional {encode : α → Json} {o : Option α} (hnull : ∀ b, decode .null ≠ .ok b)
    (h : ∀ a ∈ o, Gives decode (encode a) a) :
    Gives (decodeOption decode) ((o.map encode).getD .null) o := by
  cases o with
  | none => exact gives_null
  | some a => exact gives_option hnull (h a rfl)

theorem gives_map {β : Type} {v : Json} {a : α} (f : α → β) (h : Gives decode v a) :
    Gives (fun w => (decode w).map f) v (f a) := by
  intro w hw
  show (decode w).map f = .ok (f a)
  rw [h w hw]
  rfl

theorem gives_named {names : List (String × α)} {name : String} {a : α}
    (h : names.lookup name = some a) : Gives (decodeNamed names) (.str name) a := by
  rintro _ rfl
  rw [decodeNamed, decodeName, h]

end Gives

section Record

variable {σ : Type} {fields : List (Field Json σ)} {s t : σ} {ms : List (String × Json)}

/-- Members are read in the order in which they are written, whatever the order inside them. -/
def Learns (fields : List (Field Json σ)) (s : σ) (ms : List (String × Json)) (t : σ) : Prop :=
  ∀ ns, ReorderedMembers ms ns → learnMembers isIgnorableMember fields s ns = .ok t

theorem Learns.nil : Learns fields s [] s := by
  rintro _ rfl
  rfl

theorem Learns.cons {α : Type} {name : String} {place : σ → Option α} {put : σ → α → σ}
    {decode : Json → Decoded α} {v : Json} {a : α}
    (hfield : fields.find? (·.name == name) = some (.at name place put decode))
    (hplace : place s = none) (hv : Gives decode v a) (h : Learns fields (put s a) ms t) :
    Learns fields s ((name, v) :: ms) t := by
  rintro _ ⟨w, ns, rfl, hw, hns⟩
  have hknown : (Field.at name place put decode).isKnown s = false := by
    show (place s).isSome = false
    rw [hplace]
    rfl
  have hlearn : (Field.at name place put decode).learn s w = .ok (put s a) :=
    Field.learn_at_eq_ok_iff.2 ⟨a, hv w hw, rfl⟩
  rw [learnMembers, hfield]
  simp only [hknown, hlearn]
  exact h ns hns

/-- A record is read from members in any order if it is read from them as they are written. -/
theorem gives_record {α : Type} {finish : σ → Decoded α} {a : α} (hfields : Independent fields)
    (hlearn : Learns fields s ms t) (hfinish : finish t = .ok a) :
    Gives (decodeRecord fields s finish) (.obj ms) a := by
  rintro _ ⟨ns, os, rfl, hns, hperm⟩
  exact ofMembers_perm hfields hperm (bind_eq_ok_iff.2 ⟨t, hlearn ns hns, hfinish⟩)

end Record

/-! ## The texts of values in another order -/

theorem membersAreNumberless_iff {ms : List (String × Json)} :
    membersAreNumberless ms = true ↔ ∀ m ∈ ms, m.2.isNumberless = true := by
  induction ms with
  | nil => simp [membersAreNumberless]
  | cons m ms ih => simp [membersAreNumberless, ih]

mutual

theorem isNumberless_of_reordered : ∀ v w : Json, Reordered v w → v.isNumberless = true →
    w.isNumberless = true
  | null, _, rfl, h | bool _, _, rfl, h | str _, _, rfl, h => h
  | arr items, _, ⟨items', rfl, hitems⟩, h => areNumberless_of_reordered items items' hitems h
  | obj members, _, ⟨members', members'', rfl, hmembers, hperm⟩, h => by
    have hmembers := membersAreNumberless_iff.1 (membersAreNumberless_of_reordered _ _ hmembers h)
    exact membersAreNumberless_iff.2 fun m hm => hmembers m (hperm.mem_iff.2 hm)

theorem areNumberless_of_reordered : ∀ vs ws : List Json, ReorderedItems vs ws →
    areNumberless vs = true → areNumberless ws = true
  | [], _, rfl, _ => rfl
  | v :: vs, _, ⟨w, ws, rfl, hw, hws⟩, h => by
    rw [areNumberless, Bool.and_eq_true] at h ⊢
    exact ⟨isNumberless_of_reordered v w hw h.1, areNumberless_of_reordered vs ws hws h.2⟩

theorem membersAreNumberless_of_reordered : ∀ ms ns : List (String × Json),
    ReorderedMembers ms ns → membersAreNumberless ms = true → membersAreNumberless ns = true
  | [], _, rfl, _ => rfl
  | (_, v) :: ms, _, ⟨w, ns, rfl, hw, hns⟩, h => by
    rw [membersAreNumberless, Bool.and_eq_true] at h ⊢
    exact ⟨isNumberless_of_reordered v w hw h.1, membersAreNumberless_of_reordered ms ns hns h.2⟩

end

theorem areNumberless_map {α : Type} {encode : α → Json}
    (h : ∀ a, (encode a).isNumberless = true) (as : List α) :
    areNumberless (as.map encode) = true := by
  induction as with
  | nil => rfl
  | cons a as ih => rw [List.map_cons, areNumberless, h, ih, Bool.and_self]

theorem areNumberless_strings (ss : List String) : areNumberless (ss.map str) = true :=
  areNumberless_map (fun _ => rfl) ss

/-- What is written as `v` is read as `a` again. -/
structure ComesBack {α : Type} (decode : Json → Decoded α) (v : Json) (a : α) : Prop where
  asWritten : decode v = .ok a
  /-- The order of members does not matter, at any depth. -/
  reordered : ∀ w, Reordered v w → decode w = .ok a
  /-- Nor does it on the way through a text. -/
  text : ∀ w, Reordered v w → decodeText decode (read w.render) = .ok a

theorem Gives.comesBack {α : Type} {decode : Json → Decoded α} {v : Json} {a : α}
    (h : Gives decode v a) (hv : v.isNumberless = true) : ComesBack decode v a where
  asWritten := h v (Reordered.refl v)
  reordered := h
  text := by
    intro w hw
    rw [decodeText, read_render (isNumberless_of_reordered v w hw hv), h w hw]
    rfl

end Json

end EventReport
