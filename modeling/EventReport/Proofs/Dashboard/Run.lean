/-
# Runs of a dashboard on a statement

A dashboard binds variables into a statement, takes them out again and renames them,
in any order.

## What is proved

Each of the three keeps the regions of a statement sound, and the condition on the
website at its place (`Sound.bind`, `Sound.unbind`, `Sound.rename`); so does every
run of them (`Sound.run`).  From sound regions it is read off that the condition on
the website stands, and that the blocks of filters are whole.

The one step with a search in it is a filter that is added.  Its place is the first
line that begins a later clause, and whether it needs a WHERE of its own is read
from the lines after the last SELECT at the margin; both are found in the regions.
-/
import EventReport.Proofs.Dashboard.Regions

namespace EventReport.Dashboard

open Text

/-! ## Steps -/

/-- What a dashboard can do to a statement. -/
inductive Step where
  | bind (v : Variable)
  | unbind (v : Variable)
  | rename (fromName toName : String)
deriving DecidableEq, Repr

namespace Step

/-- The statement after the step. A variable that cannot be renamed leaves it as it is. -/
def apply (sql : String) : Step → String
  | bind v => Dashboard.bind sql v
  | unbind v => Dashboard.unbind sql v
  | rename fromName toName => (Dashboard.rename sql fromName toName).toOption.getD sql

/-- Whether the variable of the step has an identifier for a name; any two names may be given to
`rename`. -/
def isAdmissible : Step → Bool
  | bind v | unbind v => isIdentifier v.name
  | rename _ _ => true

end Step

/-- The statement after the steps. -/
def run (sql : String) (steps : List Step) : String := steps.foldl Step.apply sql

/-! ## Where a filter is added -/

theorem forall₂_of_bindFirst? {v : Variable} {ls ms : List (List Char)}
    (h : v.bindFirst? ls = some ms) : List.Forall₂ (MayBind v) ls ms := by
  induction ls generalizing ms with
  | nil => cases h
  | cons line ls ih =>
    have hsame : List.Forall₂ (MayBind v) ls ls := List.forall₂_same.2 fun l _ => .inl rfl
    rw [Variable.bindFirst?] at h
    split at h
    · next bound hbound =>
      obtain rfl := Option.some.inj h
      exact .cons (.inr hbound) hsame
    · obtain ⟨rest, hrest, rfl⟩ := Option.map_eq_some_iff.1 h
      exact .cons (.inl rfl) (ih hrest)

theorem findIdx?_of_append {α : Type} {p : α → Bool} {front : List α} {x : α} (rest : List α)
    (hfront : ∀ y ∈ front, p y = false) (hx : p x = true) :
    (front ++ x :: rest).findIdx? p = some front.length := by
  induction front with
  | nil =>
    rw [List.nil_append, List.findIdx?_cons, hx]
    rfl
  | cons y front ih =>
    have ih := ih fun z hz => hfront z (List.mem_cons_of_mem y hz)
    rw [List.cons_append, List.findIdx?_cons, hfront y List.mem_cons_self, ih]
    rfl

theorem exists_last {α : Type} {p : α → Bool} {ls : List α} (h : ∃ x ∈ ls, p x = true) :
    ∃ before x after, ls = before ++ x :: after ∧ p x = true ∧ ∀ y ∈ after, p y = false := by
  induction ls with
  | nil =>
    obtain ⟨x, hx, -⟩ := h
    cases hx
  | cons y ls ih =>
    by_cases hls : ∃ x ∈ ls, p x = true
    · obtain ⟨before, x, after, rfl, hx, hafter⟩ := ih hls
      exact ⟨y :: before, x, after, rfl, hx, hafter⟩
    · have hnone : ∀ z ∈ ls, p z = false := by
        intro z hz
        rw [← Bool.not_eq_true]
        exact fun hpz => hls ⟨z, hz, hpz⟩
      obtain ⟨x, hx, hpx⟩ := h
      rcases List.mem_cons.1 hx with rfl | hx
      · exact ⟨[], x, ls, rfl, hpx, hnone⟩
      · exact absurd ⟨x, hx, hpx⟩ hls

namespace Document

theorem fromLastSelect_append {before after : List (List Char)} {line : List Char}
    (hline : TextLine.startsTopLevel ["SELECT"] line = true)
    (hafter : ∀ l ∈ after, TextLine.startsTopLevel ["SELECT"] l = false) :
    fromLastSelect (before ++ line :: after) = line :: after := by
  have htake : (before ++ line :: after).reverse.takeWhile
      (fun l => !TextLine.startsTopLevel ["SELECT"] l) = after.reverse := by
    rw [List.reverse_append, List.reverse_cons, List.append_assoc,
      List.takeWhile_append_of_pos (fun l hl => by simp [hafter l (List.mem_reverse.1 hl)]),
      List.singleton_append, List.takeWhile_cons_of_neg (by simp [hline]), List.append_nil]
  have hlength : (before ++ line :: after).length - after.reverse.length - 1 = before.length := by
    simp only [List.length_append, List.length_cons, List.length_reverse]
    omega
  rw [fromLastSelect, htake, hlength, List.drop_left]

end Document

/-- The WHERE of a block that holds nothing yet. -/
theorem opensOuter_alwaysLine : Settled OpensOuter (alwaysLine []) := by
  have hclause : Clause.read? (alwaysLine []) = none := by decide_cbv
  refine ⟨by decide, .of_not_mem (by decide) ?_⟩
  exact {
    isQuiet := .of_read? (by decide) hclause
    isWhere := by decide
    startsTail := by decide
    startsSelect := by decide
    startsWhere := by decide }

namespace Regions

variable {s : Regions}

theorem lines_ne_nil : s.lines ≠ [] := by simp [lines, front]

namespace Sound

theorem startsTail_front (h : s.Sound) :
    ∀ line ∈ s.front, TextLine.startsTail line = false := by
  have hindented : ∀ {line : List Char}, isIndented line = true →
      TextLine.startsTail line = false := startsTail_of_isIndented
  intro line hline
  rcases List.mem_cons.1 hline with rfl | hline
  · decide
  rcases List.mem_append.1 hline with hline | hline
  · exact hindented (h.opening line hline).firm.holds.isIndented
  rcases List.mem_cons.1 hline with rfl | hline
  · exact hindented h.scope.firm.holds.isIndented
  rcases List.mem_append.1 hline with hline | hline
  · exact hindented (h.filters line hline).isInner.isIndented
  rcases List.mem_append.1 hline with hline | hline
  · exact (h.select line hline).firm.holds.startsTail
  · have hblock := h.outer
    generalize s.outer = ls at hblock hline
    cases hblock with
    | nil => cases hline
    | block hopening hls =>
      rcases List.mem_cons.1 hline with rfl | hline
      · exact hopening.firm.holds.startsTail
      · exact hindented (hls line hline).isInner.isIndented

theorem tailStart (h : s.Sound) :
    Document.tailStart ⟨s.lines⟩ = s.front.length := by
  have hfront := h.startsTail_front
  have hfirst : (s.front ++ s.tail).findIdx? TextLine.startsTail = some s.front.length := by
    have htail := h.tail
    generalize s.tail = ls at htail
    cases htail with
    | intro hopening _ => exact findIdx?_of_append _ hfront hopening.firm.holds.startsTail
  rw [Document.tailStart, show s.lines.findIdx? TextLine.startsTail = _ from hfirst]

/-- The outermost statement has filters just if its region is not empty. -/
theorem hasTopLevelWhere (h : s.Sound) :
    Document.hasTopLevelWhere ⟨s.lines⟩ s.front.length = !s.outer.isEmpty := by
  obtain ⟨line, hline, hopens⟩ := h.select_opens
  obtain ⟨before, select, after, hselect, hstarts, hafter⟩ :=
    exists_last (p := TextLine.startsTopLevel ["SELECT"])
      ⟨line, hline, hopens.firm.holds.startsSelect⟩
  have houter : ∀ l ∈ s.outer, TextLine.startsTopLevel ["SELECT"] l = false := by
    have hblock := h.outer
    generalize s.outer = ls at hblock
    intro l hl
    cases hblock with
    | nil => cases hl
    | block hopening hls =>
      rcases List.mem_cons.1 hl with rfl | hl
      · exact hopening.firm.holds.startsSelect
      · exact startsTopLevel_of_isIndented (hls l hl).isInner.isIndented _
  have hfront : s.front =
      (openingLine :: (s.opening ++ s.scope :: (s.filters ++ before))) ++
        select :: (after ++ s.outer) := by
    rw [front, hselect]
    simp
  have hwhere : ∀ l ∈ select :: after, TextLine.startsTopLevel ["WHERE"] l = false := by
    intro l hl
    have hmem : l ∈ s.select := by
      rw [hselect]
      exact List.mem_append_right before hl
    exact (h.select l hmem).firm.holds.startsWhere
  have htake : s.lines.take s.front.length = s.front := List.take_left ..
  rw [Document.hasTopLevelWhere, htake, hfront,
    Document.fromLastSelect_append hstarts (forall_append hafter houter), ← List.cons_append,
    List.any_append, List.any_eq_false.2 fun l hl => by simp [hwhere l hl], Bool.false_or]
  have hblock := h.outer
  generalize s.outer = ls at hblock
  cases hblock with
  | nil => rfl
  | block hopening _ => rw [List.any_cons, hopening.firm.holds.startsWhere]; rfl

theorem addFilter (h : s.Sound) {v : Variable}
    (hv : isIdentifier v.name = true) :
    ∃ t : Regions, (Document.addFilter ⟨s.lines⟩ v).lines = t.lines ∧ t.Sound ∧ s.Follows t := by
  obtain ⟨hadded, hneat⟩ := isFilter_addedLine hv
  have haddedFilter : ∀ l ∈ [v.addedLine], IsNeatFilter l := by
    intro l hl
    obtain rfl := List.mem_singleton.1 hl
    exact ⟨hneat, hadded⟩
  have htake : s.lines.take s.front.length = s.front := List.take_left ..
  have hdrop : s.lines.drop s.front.length = s.tail := List.drop_left ..
  rw [Document.addFilter, h.tailStart, h.hasTopLevelWhere]
  simp only [htake, hdrop]
  cases hempty : s.outer.isEmpty with
  | true =>
    refine ⟨{ s with outer := [alwaysLine [], v.addedLine] }, ?_, ?_, rfl, fun _ => rfl⟩
    · have hnil : s.outer = [] := List.isEmpty_iff.1 hempty
      simp [lines, front, hnil]
    · exact { h with outer := .block opensOuter_alwaysLine haddedFilter }
  | false =>
    refine ⟨{ s with outer := s.outer ++ [v.addedLine] }, ?_, ?_, rfl, fun _ => rfl⟩
    · simp [lines, front]
    · have hblock := h.outer
      refine { h with outer := ?_ }
      show IsOuterBlock (s.outer ++ [v.addedLine])
      generalize s.outer = ls at hblock hempty
      cases hblock with
      | nil => cases hempty
      | block hopening hls => exact .block hopening (forall_append hls haddedFilter)

/-- The lines without those that have the placeholder of a variable. -/
theorem filter (h : s.Sound) (name : List Char) :
    ∃ t : Regions, s.lines.filter (fun line => !TextLine.refersTo name line) = t.lines ∧ t.Sound ∧
      t.opening = s.opening ∧ t.scope = s.scope := by
  have hkept : ∀ {Q : List Char → Prop} {ls : List (List Char)}, (∀ l, Q l → IsQuiet l) →
      (∀ l ∈ ls, Settled Q l) → ls.filter (fun line => !TextLine.refersTo name line) = ls := by
    intro Q ls hQ hls
    refine List.filter_eq_self.2 fun l hl => ?_
    rw [(hQ l (hls l hl).firm.holds).refersTo (hls l hl).isNeat]
    rfl
  have hopeningLine : TextLine.refersTo name openingLine = false :=
    (IsQuiet.of_isInert isInert_openingLine).refersTo (by decide) name
  have hscoped : TextLine.refersTo name s.scope = false :=
    h.scope.firm.holds.isQuiet.refersTo h.scope.isNeat name
  have hopening := hkept (fun _ => IsOpening.isQuiet) h.opening
  have hselect := hkept (fun _ => IsSelect.isQuiet) h.select
  have htail : s.tail.filter (fun line => !TextLine.refersTo name line) = s.tail := by
    have hclauses := h.tail
    generalize s.tail = ls at hclauses
    cases hclauses with
    | intro hopens hls =>
      have hfirst := hopens.firm.holds.isQuiet.refersTo hopens.isNeat name
      rw [List.filter_cons_of_pos (by simp [hfirst]), hkept (fun _ => IsQuiet.of_isInert) hls]
  have houter : IsOuterBlock (s.outer.filter fun line => !TextLine.refersTo name line) := by
    have hblock := h.outer
    generalize s.outer = ls at hblock
    cases hblock with
    | nil => exact .nil
    | block hopens hls =>
      have hfirst := hopens.firm.holds.isQuiet.refersTo hopens.isNeat name
      rw [List.filter_cons_of_pos (by simp [hfirst])]
      exact .block hopens fun l hl => hls l (List.mem_of_mem_filter hl)
  refine ⟨{ s with
    filters := s.filters.filter fun line => !TextLine.refersTo name line
    outer := s.outer.filter fun line => !TextLine.refersTo name line }, ?_, ?_, rfl, rfl⟩
  · simp [lines, front, List.filter_append, hopeningLine, hscoped, hopening,
      hselect, htail]
  · exact { h with
      filters := fun l hl => h.filters l (List.mem_of_mem_filter hl)
      outer := houter }

/-! ## The three steps -/

/-- The lines of the text are the lines of the regions. -/
theorem splitLines_eq (h : s.Sound) : splitLines (joinLines s.lines) = s.lines :=
  splitLines_joinLines lines_ne_nil fun l hl => newline_not_mem_of_isNeat (h.forall_lines l hl).1

theorem replace (h : s.Sound) {name : String} (hname : isIdentifier name = true) {r : List Char}
    (hr : isNeat r = true) (hcloser : r.any isCloser = true) :
    ∃ t : Regions, Placeholder.replace name.toList r (joinLines s.lines) =
      joinLines t.lines ∧ t.Sound ∧ s.Follows t := by
  have hshut : ∀ l ∈ s.lines, isShut l = true :=
    fun l hl => isShut_of_isNeat (h.forall_lines l hl).1
  obtain ⟨ls, hls, hrevised⟩ := replaceFrom_joinLines (r := r) hname hshut false
  obtain ⟨t, rfl, ht, hfollows⟩ := h.of_forall₂ (keeps_revised hr hcloser)
    (fun hclear new hnew => hnew.eq_of_not_occurs (hclear name hname)) hrevised
  exact ⟨t, hls, ht, hfollows⟩

variable {sql : String}

theorem bind (h : s.Sound) (hsql : sql.toList = joinLines s.lines)
    (v : Variable) :
    ∃ t : Regions, (Dashboard.bind sql v).toList = joinLines t.lines ∧ t.Sound ∧
      s.Follows t := by
  rw [Dashboard.bind]
  split
  · next hbinds =>
    rw [Bool.and_eq_true] at hbinds
    obtain ⟨hv, -⟩ := hbinds
    have hdocument : Document.ofText sql.toList = ⟨s.lines⟩ := by
      rw [Document.ofText, hsql, h.splitLines_eq]
    rw [hdocument, String.toList_ofList, Document.text, Document.bind]
    split
    · next ls hls =>
      obtain ⟨t, rfl, ht, hfollows⟩ := h.of_forall₂ (keeps_mayBind hv)
        (fun _ new hnew => eq_of_mayBind h.scope.isNeat h.scope.firm.holds.isQuiet hnew)
        (forall₂_of_bindFirst? hls)
      exact ⟨t, rfl, ht, hfollows⟩
    · obtain ⟨t, hlines, ht, hfollows⟩ := h.addFilter hv
      exact ⟨t, congrArg joinLines hlines, ht, hfollows⟩
  · exact ⟨s, hsql, h, .refl s⟩

/-- To take out a variable is to leave out filters, and then to replace its placeholder. -/
theorem unbind_eq (h : s.Sound) (hsql : sql.toList = joinLines s.lines) (v : Variable) :
    ∃ t : Regions, (Dashboard.unbind sql v).toList =
        Placeholder.replace v.name.toList ['\'', '\''] (joinLines t.lines) ∧ t.Sound ∧
      t.opening = s.opening ∧ t.scope = s.scope := by
  have hleft : ∀ l ∈ s.lines, TextLine.refersTo v.name.toList l = true →
      TextLine.where? l = none := by
    intro l hl hrefers
    obtain ⟨hneat, hquiet | hfilter⟩ := h.forall_lines l hl
    · rw [hquiet.refersTo hneat] at hrefers
      cases hrefers
    · exact where?_of_isFilter hfilter.isFilter hneat
  obtain ⟨t, hlines, ht, hopening, hscope⟩ := h.filter v.name.toList
  refine ⟨t, ?_, ht, hopening, hscope⟩
  rw [Dashboard.unbind, String.toList_ofList, hsql, h.splitLines_eq, unbind_eq_filter hleft, hlines]

theorem unbind (h : s.Sound) (hsql : sql.toList = joinLines s.lines) {v : Variable}
    (hv : isIdentifier v.name = true) :
    ∃ t : Regions, (Dashboard.unbind sql v).toList = joinLines t.lines ∧ t.Sound ∧ s.Follows t := by
  obtain ⟨t, htext, ht, hopening, hscope⟩ := h.unbind_eq hsql v
  obtain ⟨u, hreplace, hu, hfollows⟩ :=
    ht.replace hv (r := ['\'', '\'']) (by decide) (by decide)
  exact ⟨u, htext.trans hreplace, hu,
    .trans ⟨congrArg List.length hopening, fun _ => hscope⟩ hfollows⟩

/-- Where no line above it has an opening brace, the condition on the website is replaced in like any
other text. -/
theorem unbind_scope (h : s.Sound) (hsql : sql.toList = joinLines s.lines) {v : Variable}
    (hv : isIdentifier v.name = true)
    (hbefore : ∀ line ∈ openingLine :: s.opening, '\x7b' ∉ line) :
    ∃ after, splitLines (Dashboard.unbind sql v).toList = (openingLine :: s.opening) ++
      Placeholder.replace v.name.toList ['\'', '\''] s.scope :: after := by
  obtain ⟨t, htext, ht, hopening, hscope⟩ := h.unbind_eq hsql v
  have hlines : t.lines = (openingLine :: s.opening) ++
      s.scope :: (t.filters ++ (t.select ++ t.outer) ++ t.tail) := by
    rw [← hopening, ← hscope]
    simp [lines, front]
  have hneat : ∀ l ∈ t.lines, isNeat l = true := fun l hl => (ht.forall_lines l hl).1
  rw [hlines] at hneat htext
  have hshut : ∀ l ∈ s.scope :: (t.filters ++ (t.select ++ t.outer) ++ t.tail), isShut l = true :=
    fun l hl => isShut_of_isNeat (hneat l (List.mem_append_right _ hl))
  obtain ⟨after, hreplace, hafter⟩ :=
    replace_joinLines_of_not_mem (r := ['\'', '\'']) hv hbefore hshut
  refine ⟨after, ?_⟩
  rw [htext, hreplace]
  have hkept : ∀ {l new}, isNeat l = true → Placeholder.Patched ['\'', '\''] l new →
      isNeat new = true :=
    fun hl hnew => isNeat_of_patched (by decide) (by decide) hnew hl
  have hneatAfter : ∀ l ∈ after, isNeat l = true :=
    forall_of_forall₂ (P := (isNeat · = true)) (fun _ _ hl hnew => hkept hl hnew.patched) hafter
      fun l hl => hneat l (List.mem_append_right _ (List.mem_cons_of_mem _ hl))
  refine splitLines_joinLines (by simp) fun l hl => newline_not_mem_of_isNeat ?_
  rcases List.mem_append.1 hl with hl | hl
  · exact hneat l (List.mem_append_left _ hl)
  · rcases List.mem_cons.1 hl with rfl | hl
    · exact hkept (hneat s.scope (by simp)) (Placeholder.patched_replace ..)
    · exact hneatAfter l hl

theorem rename (h : s.Sound) (hsql : sql.toList = joinLines s.lines) (fromName toName : String) :
    ∃ t : Regions, ((Dashboard.rename sql fromName toName).toOption.getD sql).toList =
      joinLines t.lines ∧ t.Sound ∧ s.Follows t := by
  have hsame : ∃ t : Regions, sql.toList = joinLines t.lines ∧ t.Sound ∧ s.Follows t :=
    ⟨s, hsql, h, .refl s⟩
  rw [Dashboard.rename]
  split
  · exact hsame
  · next hfrom =>
    split
    · exact hsame
    · next hto =>
      split
      · exact hsame
      split
      · exact hsame
      · have hfrom : isIdentifier fromName = true := by simpa using hfrom
        have hto : isIdentifier toName = true := by simpa using hto
        have hcloser : (Placeholder.write toName.toList).any isCloser = true := by
          simp [Placeholder.write, isCloser]
        obtain ⟨t, hreplace, ht⟩ := h.replace hfrom (isNeat_write hto) hcloser
        refine ⟨t, ?_, ht⟩
        show (String.ofList _).toList = _
        rw [String.toList_ofList, hsql, hreplace]

theorem step (h : s.Sound)
    (hsql : sql.toList = joinLines s.lines) {step : Step}
    (hstep : step.isAdmissible = true) :
    ∃ t : Regions, (step.apply sql).toList = joinLines t.lines ∧ t.Sound ∧
      s.Follows t := by
  cases step with
  | bind v => exact h.bind hsql v
  | unbind v => exact h.unbind hsql hstep
  | rename fromName toName => exact h.rename hsql fromName toName

/-- After any steps the regions are sound, and as many lines stand before the condition on the
website as before. -/
theorem run (h : s.Sound) (hsql : sql.toList = joinLines s.lines)
    (steps : List Step) (hsteps : ∀ step ∈ steps, step.isAdmissible = true) :
    ∃ t : Regions, (Dashboard.run sql steps).toList = joinLines t.lines ∧ t.Sound ∧
      s.Follows t := by
  induction steps generalizing s sql with
  | nil => exact ⟨s, hsql, h, .refl s⟩
  | cons step steps ih =>
    obtain ⟨t, ht, hsound, hfollows⟩ := h.step hsql (hsteps step List.mem_cons_self)
    obtain ⟨u, hu, husound, hfollows'⟩ :=
      ih hsound ht fun m hm => hsteps m (List.mem_cons_of_mem step hm)
    exact ⟨u, hu, husound, hfollows.trans hfollows'⟩

end Sound

end Regions

/-! ## What sound regions say -/

/-- The condition on the website stands at the place, within the base statement and as its first
filter. The base statement ends at the margin. -/
structure ScopeStands (scope : List Char) (place : Nat) (lines : List (List Char)) : Prop where
  line : lines[place]? = some scope
  opening : lines.head? = some openingLine
  inner : ∀ line ∈ (lines.take place).tail, isIndented line = true
  first : ∀ line ∈ lines.take place,
    isFilter line = false ∧ isWhere line = false ∧ TextLine.clause? line = none

namespace Regions.Sound

variable {s : Regions}

theorem scopeStands (h : s.Sound) : ScopeStands s.scope (s.opening.length + 1) s.lines := by
  have hlines : s.lines = (openingLine :: s.opening) ++
      s.scope :: (s.filters ++ (s.select ++ s.outer) ++ s.tail) := by simp [lines, front]
  have htake : s.lines.take (s.opening.length + 1) = openingLine :: s.opening := by
    have hlength : s.opening.length + 1 = (openingLine :: s.opening).length := rfl
    rw [hlines, hlength, List.take_left]
  refine ⟨?_, rfl, ?_, ?_⟩
  · rw [hlines]
    simp
  · rw [htake]
    exact fun l hl => (h.opening l hl).firm.holds.isIndented
  · rw [htake]
    have hinert : ∀ l, isNeat l = true → isInert l = true →
        isFilter l = false ∧ isWhere l = false ∧ TextLine.clause? l = none := by
      intro l hneat hl
      rw [clause?_of_isNeat hneat]
      exact ⟨isFilter_of_isInert hl, isWhere_of_isInert hl, read?_of_isInert hl⟩
    intro l hl
    rcases List.mem_cons.1 hl with rfl | hl
    · exact hinert _ (by decide) isInert_openingLine
    · exact hinert l (h.opening l hl).isNeat (h.opening l hl).firm.holds.isInert

/-- The two blocks of filters begin with the condition on the website and with the WHERE of the
outermost statement. -/
theorem anchors (h : s.Sound) : Anchors false s.lines := by
  have hquiet : ∀ {Q : List Char → Prop} {ls : List (List Char)}, (∀ l, Q l → IsQuiet l) →
      (∀ l ∈ ls, Settled Q l) → ∀ l ∈ ls, isFilter l = false :=
    fun hQ hls l hl => (hQ l (hls l hl).firm.holds).isFilter
  have htail : Anchors false s.tail := by
    have hnone : ∀ l ∈ s.tail, isFilter l = false := by
      have hclauses := h.tail
      generalize s.tail = ls at hclauses
      cases hclauses with
      | intro hopens hls =>
        intro l hl
        rcases List.mem_cons.1 hl with rfl | hl
        · exact hopens.firm.holds.isQuiet.isFilter
        · exact hquiet (fun _ => IsQuiet.of_isInert) hls l hl
    have hnil : Anchors false [] := trivial
    have happend : Anchors false (s.tail ++ []) := .append hnone hnil
    rwa [List.append_nil] at happend
  have houter : Anchors false (s.outer ++ s.tail) := by
    have hblock := h.outer
    generalize s.outer = ls at hblock
    cases hblock with
    | nil => exact htail
    | block hopens hls =>
      exact .block hopens.firm.holds.isWhere hopens.firm.holds.isQuiet.isFilter
        (fun l hl => (hls l hl).isInner.isFilter) htail
  have hopening : ∀ l ∈ openingLine :: s.opening, isFilter l = false := by
    intro l hl
    rcases List.mem_cons.1 hl with rfl | hl
    · exact isFilter_of_isInert isInert_openingLine
    · exact hquiet (fun _ => IsOpening.isQuiet) h.opening l hl
  have hlines : s.lines = (openingLine :: s.opening) ++
      s.scope :: (s.filters ++ (s.select ++ (s.outer ++ s.tail))) := by simp [lines, front]
  rw [hlines]
  refine .append hopening (.block h.scope.firm.holds.isWhere h.scope.firm.holds.isQuiet.isFilter
    (fun l hl => (h.filters l hl).isInner.isFilter) ?_)
  exact .append (hquiet (fun _ => IsSelect.isQuiet) h.select) houter

end Regions.Sound

end EventReport.Dashboard
