import LocalSend.PathSafety

/-!
# Which names are joined

`safe_join` reads a remote name with the parser of `std::path` and builds the path again from its
components. The names that it takes are those of a small grammar over the text between the slashes,
and the path it makes has that text in it, without the empty segments and the dots.

## Key results

- `relativeOf_components`: what the parser and the loop make of a name
- `safe_join_grammar`: which names are taken, and what path they give
-/

namespace LocalSend

/-- The text between the slashes of a name. -/
def nameSegments (name : String) : List String := (name.toList.splitOn '/').map String.ofList

/-- The segments that a path keeps. -/
def namedSegments (name : String) : List String :=
  (nameSegments name).filter fun segment => segment ≠ "" && segment ≠ "."

/-- The grammar of the names that are joined. -/
structure JoinableName (name : String) : Prop where
  nonempty : name ≠ ""
  chars : ∀ c ∈ name.toList, c ≠ '\x00' ∧ c ≠ '\\' ∧ c ≠ ':'
  relative : name.toList.head? ≠ some '/'
  below : ".." ∉ nameSegments name
  named : namedSegments name ≠ []

/-- A name of one entry of a directory. -/
structure PlainName (name : String) : Prop where
  nonempty : name ≠ ""
  notDots : name ≠ "." ∧ name ≠ ".."
  chars : ∀ c ∈ name.toList, c ≠ '/' ∧ c ≠ '\x00' ∧ c ≠ '\\' ∧ c ≠ ':'

/-! ## Components -/

theorem relativeOf_ofSegments (segments : List String) :
    relativeOf (segments.filterMap Component.ofSegment) =
      if ".." ∈ segments then none
      else some (segments.filter fun segment => segment ≠ "" && segment ≠ ".") := by
  induction segments with
  | nil => rfl
  | cons segment segments ih =>
    by_cases hskip : segment = "" ∨ segment = "."
    · -- an empty segment and a dot are no components
      have hnone : Component.ofSegment segment = none := if_pos hskip
      have hne : ".." ≠ segment := by
        intro heq
        subst heq
        revert hskip
        decide
      have hdrop : (segment ≠ "" && segment ≠ ".") = false := by
        cases hskip with
        | inl h => simp [h]
        | inr h => simp [h]
      rw [List.filterMap_cons_none hnone, ih, List.filter_cons_of_neg (by rw [hdrop]; decide)]
      simp [hne]
    · by_cases hdots : segment = ".."
      · subst hdots
        rw [if_pos List.mem_cons_self]
        rfl
      · have hsome : Component.ofSegment segment = some (.normal segment) := by
          rw [Component.ofSegment, if_neg hskip, if_neg hdots]
        obtain ⟨hempty, hdot⟩ := not_or.mp hskip
        have hkeep : (segment ≠ "" && segment ≠ ".") = true := by simp [hempty, hdot]
        rw [List.filterMap_cons_some hsome, relativeOf, ih]
        -- one that leads upwards, here or below, refuses the whole name
        by_cases hbelow : ".." ∈ segments
        · rw [if_pos hbelow, if_pos (List.mem_cons_of_mem segment hbelow)]
          rfl
        · have hne : ".." ∉ segment :: segments := by simp [Ne.symm hdots, hbelow]
          rw [if_neg hbelow, if_neg hne, List.filter_cons, if_pos hkeep]
          rfl

/-- A segment has no slash in it, and no character that the name has not. -/
theorem mem_splitOn {cs segment : List Char} (h : segment ∈ cs.splitOn '/') :
    ∀ c ∈ segment, c ≠ '/' ∧ c ∈ cs := by
  induction cs generalizing segment with
  | nil =>
    rw [List.splitOn_nil, List.mem_singleton] at h
    subst h
    intro c hc
    cases hc
  | cons d cs ih =>
    have hlater : ∀ segment ∈ cs.splitOn '/', ∀ c ∈ segment, c ≠ '/' ∧ c ∈ d :: cs := by
      intro segment hsegment c hc
      have hold := ih hsegment c hc
      exact ⟨hold.1, List.mem_cons_of_mem d hold.2⟩
    rw [List.splitOn_cons_eq_if_modifyHead] at h
    split at h
    · cases List.mem_cons.mp h with
      | inl hnil =>
        subst hnil
        intro c hc
        cases hc
      | inr htail => exact hlater segment htail
    · rename_i hd
      -- the character joins the first segment of what follows
      cases hsplit : cs.splitOn '/' with
      | nil => exact absurd hsplit (List.splitOn_ne_nil _ _)
      | cons first rest =>
        rw [hsplit] at h hlater
        cases List.mem_cons.mp h with
        | inl hfirst =>
          subst hfirst
          intro c hc
          cases List.mem_cons.mp hc with
          | inl heq =>
            subst heq
            exact ⟨fun heq => hd (beq_iff_eq.mpr heq), List.mem_cons_self⟩
          | inr hmem => exact hlater first List.mem_cons_self c hmem
        | inr htail => exact hlater segment (List.mem_cons_of_mem first htail)

/-- An empty first segment with another after it is that of an absolute name. -/
theorem nameSegments_ne_root {name : String} (h : name.toList.head? ≠ some '/') (second : String)
    (rest : List String) : nameSegments name ≠ "" :: second :: rest := by
  intro heq
  unfold nameSegments at heq
  cases hname : name.toList with
  | nil =>
    rw [hname, List.splitOn_nil] at heq
    simp at heq
  | cons c cs =>
    have hc : ¬(c == '/') = true := by
      intro hslash
      rw [hname, beq_iff_eq.mp hslash] at h
      exact h rfl
    rw [hname, List.splitOn_cons_eq_if_modifyHead, if_neg hc] at heq
    cases hsplit : cs.splitOn '/' with
    | nil => exact List.splitOn_ne_nil _ _ hsplit
    | cons first others =>
      rw [hsplit, List.modifyHead_cons, List.map_cons] at heq
      have hhead := congrArg String.toList (List.cons.inj heq).1
      rw [String.toList_ofList] at hhead
      cases hhead

/-- A relative name gives its segments, unless one of them leads upwards. -/
theorem relativeOf_components {name : String} (h : name.toList.head? ≠ some '/') :
    relativeOf (components name) =
      if ".." ∈ nameSegments name then none else some (namedSegments name) := by
  have hsegments := relativeOf_ofSegments (nameSegments name)
  have hroot := nameSegments_ne_root h
  unfold components
  dsimp only
  split
  · rename_i second rest heq
    exact absurd heq (hroot second rest)
  · exact hsegments
  · exact hsegments

/-! ## Joining -/

/-- Nothing in the text of a name is refused. -/
theorem chars_iff (name : String) :
    (name.toList.any fun c => c = '\x00' || c = '\\' || c = ':') = false ↔
      ∀ c ∈ name.toList, c ≠ '\x00' ∧ c ≠ '\\' ∧ c ≠ ':' := by
  simp only [List.any_eq_false, Bool.or_eq_true, decide_eq_true_eq, not_or, ne_eq, and_assoc]

/-- The names that are joined, and the paths they give. -/
theorem safeJoin_eq_ok_iff {base p : PathBuf} {name : String} :
    safeJoin base name = .ok p ↔ JoinableName name ∧ p = base.join (namedSegments name) := by
  unfold safeJoin
  constructor
  · intro h
    split at h
    · cases h
    rename_i hchars
    split at h
    · cases h
    rename_i hrelative
    obtain ⟨hempty, hany⟩ := not_or.mp hchars
    -- neither refused by its text nor absolute
    rw [relativeOf_components hrelative] at h
    by_cases hbelow : ".." ∈ nameSegments name
    · rw [if_pos hbelow] at h
      cases h
    · rw [if_neg hbelow] at h
      cases hnamed : namedSegments name with
      | nil =>
        rw [hnamed] at h
        cases h
      | cons first rest =>
        rw [hnamed] at h
        cases h
        refine ⟨⟨hempty, ?_, hrelative, hbelow, by rw [hnamed]; exact List.cons_ne_nil first rest⟩, rfl⟩
        exact (chars_iff name).mp (Bool.not_eq_true _ ▸ hany)
  · intro h
    obtain ⟨hname, rfl⟩ := h
    have hchars : ¬(name = "" ∨ (name.toList.any fun c => c = '\x00' || c = '\\' || c = ':') = true) := by
      rw [(chars_iff name).mpr hname.chars]
      simp [hname.nonempty]
    rw [if_neg hchars, if_neg hname.relative, relativeOf_components hname.relative,
      if_neg hname.below]
    cases hnamed : namedSegments name with
    | nil => exact absurd hnamed hname.named
    | cons first rest => rfl

/-- The segments of a name that is joined are plain names. -/
theorem JoinableName.plain {name : String} (h : JoinableName name) :
    ∀ segment ∈ namedSegments name, PlainName segment := by
  intro segment hsegment
  obtain ⟨hmem, hkept⟩ := List.mem_filter.mp hsegment
  simp only [ne_eq, Bool.and_eq_true, decide_eq_true_eq] at hkept
  refine ⟨hkept.1, ⟨hkept.2, fun hdots => h.below (hdots ▸ hmem)⟩, fun c hc => ?_⟩
  obtain ⟨chars, hchars, rfl⟩ := List.mem_map.mp hmem
  rw [String.toList_ofList] at hc
  obtain ⟨hslash, hin⟩ := mem_splitOn hchars c hc
  exact ⟨hslash, h.chars c hin⟩

/-- A name is joined exactly when it is of the grammar, and gives the base with the segments of the
    name below it, every one of them a plain name. -/
theorem safe_join_grammar (base : PathBuf) (name : String) :
    ((∃ p, safeJoin base name = .ok p) ↔ JoinableName name) ∧
      ∀ p, safeJoin base name = .ok p →
        p.components = base.components ++ namedSegments name ∧ base.components <+: p.components ∧
          ∀ segment ∈ p.components.drop base.components.length, PlainName segment := by
  constructor
  · constructor
    · intro h
      obtain ⟨p, hp⟩ := h
      exact (safeJoin_eq_ok_iff.mp hp).1
    · intro h
      exact ⟨_, safeJoin_eq_ok_iff.mpr ⟨h, rfl⟩⟩
  · intro p hp
    obtain ⟨hname, rfl⟩ := safeJoin_eq_ok_iff.mp hp
    have hcomponents : (base.join (namedSegments name)).components =
        base.components ++ namedSegments name := rfl
    rw [hcomponents, List.drop_left]
    exact ⟨rfl, List.prefix_append _ _, hname.plain⟩

example : (safeJoin ⟨["tmp", "localsend"]⟩ "nested//./file.txt/").toOption =
    some ⟨["tmp", "localsend", "nested", "file.txt"]⟩ := by decide

end LocalSend
