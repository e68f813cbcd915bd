import LocalSend.ForStd.FormUrlEncoded

/-!
# Values that a query gives back

A client that formats its values into the text of a form, without encoding them, gets some of them
back from the form parser as they are. Which ones is decided by the characters in them: every
character that is dropped, cut off or read as part of something else shows in the number of ASCII
characters, which decoding never makes up for.

## Key results

- `formOfText_of_literal`: a form of literal values is given back
- `literal_of_find`: a form whose values are all found again has literal values only
- `queryOf_append`: the query of a URL starts at its first `?`
-/

namespace FormUrlEncoded

/-! ## Literal values -/

/-- A value that stands in a query for itself. -/
structure Literal (v : List Char) : Prop where
  escape : hasEscape v = false
  separator : ∀ c ∈ v, c ≠ '#' ∧ c ≠ '&' ∧ c ≠ '+'
  blank : ∀ c ∈ v, isTabOrNewline c = false

/-- A value that a URL parser does not cut at the end of a URL. -/
def EndsLiteral (v : List Char) : Prop := trimEnd v = v

structure IsName (n : List Char) : Prop where
  literal : Literal n
  eq : '=' ∉ n

/-- Whether a text is a name. -/
def isName (n : List Char) : Bool :=
  !hasEscape n && n.all fun c => c ≠ '#' && c ≠ '&' && c ≠ '+' && c ≠ '=' && !isTabOrNewline c

/-- The test of a name tests this. -/
theorem IsName.of_isName {n : List Char} (h : isName n = true) : IsName n := by
  simp only [isName, Bool.and_eq_true, Bool.not_eq_true', List.all_eq_true, decide_eq_true_eq] at h
  obtain ⟨hescape, hchars⟩ := h
  refine ⟨⟨hescape, fun c hc => ?_, fun c hc => (hchars c hc).2⟩,
    fun hmem => (hchars _ hmem).1.2 rfl⟩
  obtain ⟨⟨⟨⟨hhash, hamp⟩, hplus⟩, _⟩, _⟩ := hchars c hc
  exact ⟨hhash, hamp, hplus⟩

/-- A form as a client formats it, without encoding. -/
def formText : List (List Char × List Char) → List Char
  | [] => []
  | [(n, v)] => n ++ '=' :: v
  | (n, v) :: p :: ps => n ++ '=' :: v ++ '&' :: formText (p :: ps)

/-- Every value stands for itself. -/
def AllLiteral : List (List Char × List Char) → Prop
  | [] => True
  | [(_, v)] => Literal v ∧ EndsLiteral v
  | (_, v) :: p :: ps => Literal v ∧ AllLiteral (p :: ps)

/-- What a URL parser keeps of the text of a query. -/
def cleanText (s : List Char) : List Char :=
  ((trimEnd s).filter fun c => !isTabOrNewline c).takeWhile (· ≠ '#')

/-- What a form parser sees of a value with something after it. -/
def visible (v : List Char) : List Char :=
  ((v.filter fun c => !isTabOrNewline c).takeWhile (· ≠ '#')).takeWhile (· ≠ '&')

/-- A literal value is read as it is. -/
theorem Literal.readText_eq {v : List Char} (h : Literal v) : readText v = v := by
  rw [readText_of_not_hasEscape h.escape, List.map_congr_left (g := id), List.map_id]
  intro c hc
  exact if_neg (h.separator c hc).2.2

/-- Nothing is trimmed before a character that is neither a control nor a blank. -/
theorem trimEnd_append_cons (xs : List Char) {c : Char} (hc : isC0OrSpace c = false)
    (ys : List Char) :
    trimEnd (xs ++ c :: ys) = xs ++ c :: trimEnd ys := by
  unfold trimEnd
  -- trimming goes from the end, up to `c` at most
  induction ys using List.reverseRecOn with
  | nil =>
    exact List.rdropWhile_concat_neg isC0OrSpace xs c (by simp [hc])
  | append_singleton ys d ih =>
    have hassoc : xs ++ c :: (ys ++ [d]) = (xs ++ c :: ys) ++ [d] := by simp
    rw [hassoc, List.rdropWhile_concat, List.rdropWhile_concat]
    split
    · exact ih
    · simp

/-! ### Dropping characters shows in the count -/

/-- The ASCII characters of two texts. -/
theorem asciiCount_append (s t : List Char) : asciiCount (s ++ t) = asciiCount s + asciiCount t :=
  List.countP_append

/-- A prefix with all the ASCII characters has no delimiter left out. -/
theorem not_mem_of_takeWhile {s : List Char} {d : Char} (hd : d.toNat < 128)
    (h : asciiCount s ≤ asciiCount (s.takeWhile (· ≠ d))) : d ∉ s := by
  intro hmem
  -- were it found, the part from it on would count
  have hsplit := congrArg asciiCount (List.takeWhile_append_dropWhile (p := (· ≠ d)) (l := s))
  rw [asciiCount_append] at hsplit
  have hfound : d ∈ s.dropWhile (· ≠ d) := by
    rw [← List.takeWhile_append_dropWhile (p := (· ≠ d)) (l := s), List.mem_append] at hmem
    apply hmem.resolve_left
    intro htake
    exact absurd (List.mem_takeWhile_imp htake) (by simp)
  have hpos : 0 < asciiCount (s.dropWhile (· ≠ d)) :=
    List.countP_pos_iff.mpr ⟨d, hfound, decide_eq_true hd⟩
  omega

/-- A text that keeps all its ASCII characters has no tab or newline. -/
theorem blank_of_filter {s : List Char}
    (h : asciiCount s ≤ asciiCount (s.filter fun c => !isTabOrNewline c)) :
    ∀ c ∈ s, isTabOrNewline c = false := by
  induction s with
  | nil => exact nofun
  | cons c s ih =>
    have hcount : ∀ s, asciiCount (c :: s) = asciiCount s + if c.toNat < 128 then 1 else 0 := by
      intro s
      unfold asciiCount
      rw [List.countP_cons]
      simp only [decide_eq_true_eq]
    have hle : asciiCount (s.filter fun c => !isTabOrNewline c) ≤ asciiCount s :=
      List.filter_sublist.countP_le
    cases hc : isTabOrNewline c with
    -- the count would have gone down with `c`
    | true =>
      have hlt : c.toNat < 128 := by
        simp only [isTabOrNewline, Bool.or_eq_true, decide_eq_true_eq] at hc
        rcases hc with (rfl | rfl) | rfl <;> decide
      rw [List.filter_cons_of_neg (by simp [hc]), hcount, if_pos hlt] at h
      omega
    | false =>
      rw [List.filter_cons_of_pos (by simp [hc]), hcount, hcount] at h
      intro d hd
      rcases List.mem_cons.mp hd with rfl | hd
      · exact hc
      · exact ih (by omega) d hd

/-- A text from which no ASCII is trimmed ends literally. -/
theorem endsLiteral_of_trimEnd {s : List Char} (h : asciiCount s ≤ asciiCount (trimEnd s)) :
    EndsLiteral s := by
  have hsplit : trimEnd s ++ s.rtakeWhile isC0OrSpace = s := List.rdropWhile_append_rtakeWhile
  have hcount := congrArg asciiCount hsplit
  rw [asciiCount_append] at hcount
  have hnone : s.rtakeWhile isC0OrSpace = [] := by
    apply List.eq_nil_iff_forall_not_mem.mpr
    intro c hc
    have hdropped := List.mem_rtakeWhile_imp hc
    have hc0 : c.toNat ≤ 0x20 := of_decide_eq_true hdropped
    have hpos : 0 < asciiCount (s.rtakeWhile isC0OrSpace) :=
      List.countP_pos_iff.mpr ⟨c, hc, decide_eq_true (by omega)⟩
    omega
  rw [hnone, List.append_nil] at hsplit
  exact hsplit

/-- What is visible of a value is part of it. -/
theorem visible_sublist (v : List Char) : (visible v).Sublist v :=
  (List.takeWhile_sublist _).trans ((List.takeWhile_sublist _).trans List.filter_sublist)

/-- A value that is read back stands for itself. -/
theorem literal_of_readText {v : List Char} (h : readText (visible v) = v) : Literal v := by
  -- no step of the parser adds an ASCII character, so none has dropped one: first none was blank
  have hread := (asciiCount_readText_le (visible v)).1
  rw [h] at hread
  unfold visible at hread
  have hamp : asciiCount ((((v.filter fun c => !isTabOrNewline c).takeWhile (· ≠ '#')).takeWhile
      (· ≠ '&'))) ≤ asciiCount ((v.filter fun c => !isTabOrNewline c).takeWhile (· ≠ '#')) :=
    (List.takeWhile_sublist _).countP_le
  have hhash : asciiCount ((v.filter fun c => !isTabOrNewline c).takeWhile (· ≠ '#')) ≤
      asciiCount (v.filter fun c => !isTabOrNewline c) := (List.takeWhile_sublist _).countP_le
  have hblank : asciiCount (v.filter fun c => !isTabOrNewline c) ≤ asciiCount v :=
    List.filter_sublist.countP_le
  have hnoblank := blank_of_filter (s := v) (by omega)
  have hfilter : (v.filter fun c => !isTabOrNewline c) = v := by
    apply List.filter_eq_self.mpr
    intro c hc
    rw [hnoblank c hc]
    rfl
  rw [hfilter] at hread hamp hhash
  -- then the value has no fragment
  have hnohash := not_mem_of_takeWhile (s := v) (d := '#') (by decide) (by omega)
  have hkept : v.takeWhile (· ≠ '#') = v := by
    apply List.takeWhile_eq_self_iff.mpr
    intro c hc
    exact decide_eq_true fun heq => hnohash (heq ▸ hc)
  rw [hkept] at hread
  -- nor an end before its own
  have hnoamp := not_mem_of_takeWhile (s := v) (d := '&') (by decide) (by omega)
  have hall : visible v = v := by
    unfold visible
    rw [hfilter, hkept]
    apply List.takeWhile_eq_self_iff.mpr
    intro c hc
    exact decide_eq_true fun heq => hnoamp (heq ▸ hc)
  rw [hall] at h
  -- an escape would have taken characters as well
  have hescape : hasEscape v = false := by
    rw [← Bool.not_eq_true]
    intro hescape
    have hlt := (asciiCount_readText_le v).2 hescape
    rw [h] at hlt
    omega
  rw [readText_of_not_hasEscape hescape] at h
  refine ⟨hescape, fun c hc => ⟨fun heq => hnohash (heq ▸ hc), fun heq => hnoamp (heq ▸ hc), ?_⟩,
    hnoblank⟩
  intro heq
  -- what is left is a plus, and it would have been read as a space
  have hsame := List.map_inj_left.mp (h.trans (List.map_id v).symm) c hc
  rw [heq] at hsame
  exact nomatch hsame

/-! ### Forms -/

/-- A prefix up to a character that is not in the first text. -/
theorem takeWhile_ne_append {a : Char} {s : List Char} (h : a ∉ s) (t : List Char) :
    (s ++ t).takeWhile (· ≠ a) = s ++ t.takeWhile (· ≠ a) := by
  apply List.takeWhile_append_of_pos
  intro c hc
  exact decide_eq_true fun heq => h (heq ▸ hc)

/-- What is left after it. -/
theorem dropWhile_ne_append {a : Char} {s : List Char} (h : a ∉ s) (t : List Char) :
    (s ++ t).dropWhile (· ≠ a) = t.dropWhile (· ≠ a) := by
  apply List.dropWhile_append_of_pos
  intro c hc
  exact decide_eq_true fun heq => h (heq ▸ hc)

/-- A pair on its own. -/
theorem formOfText_single {n u : List Char} (hn : IsName n) (hu : '&' ∉ u) :
    formOfText (n ++ '=' :: u) = [(n, readText u)] := by
  have hamp : '&' ∉ n ++ '=' :: u := by
    intro hmem
    rcases List.mem_append.mp hmem with hmem | hmem
    · exact (hn.literal.separator _ hmem).2.1 rfl
    · rcases List.mem_cons.mp hmem with heq | hmem
      · exact nomatch heq
      · exact hu hmem
  have hsome : (n ++ '=' :: u).isEmpty = false := by simp
  unfold formOfText
  rw [List.splitOn_eq_singleton hamp, List.filter_cons_of_pos (by rw [hsome]; rfl), List.filter_nil,
    List.map_singleton, takeWhile_ne_append hn.eq, dropWhile_ne_append hn.eq]
  have hname : n ++ ('=' :: u).takeWhile (· ≠ '=') = n := List.append_nil n
  rw [hname, hn.literal.readText_eq]
  rfl

/-- A pair, and what comes after it. -/
theorem formOfText_cons {n u : List Char} (hn : IsName n) (hu : '&' ∉ u) (t : List Char) :
    formOfText (n ++ '=' :: u ++ '&' :: t) = (n, readText u) :: formOfText t := by
  have hsingle := formOfText_single hn hu
  unfold formOfText at hsingle ⊢
  rw [List.splitOn_append_cons_of_beq _ _ (by rfl), List.filter_append, List.map_append, hsingle]
  rfl

/-- The first pair of a form, whatever its value. -/
theorem formOfText_first {n : List Char} (hn : IsName n) (u : List Char) :
    ∃ ps, formOfText (n ++ '=' :: u) = (n, readText (u.takeWhile (· ≠ '&'))) :: ps := by
  have hnone : '&' ∉ u.takeWhile (· ≠ '&') := by
    intro hmem
    exact absurd (List.mem_takeWhile_imp hmem) (by simp)
  have hsplit := List.takeWhile_append_dropWhile (p := fun c => decide (c ≠ '&')) (l := u)
  -- the value goes on to the first `&`, if there is one
  cases hrest : u.dropWhile (· ≠ '&') with
  | nil =>
    rw [hrest, List.append_nil] at hsplit
    refine ⟨[], ?_⟩
    rw [← formOfText_single hn hnone, hsplit]
  | cons c t =>
    have hc : c = '&' := by
      have hhead := List.head?_dropWhile_not (fun c => decide (c ≠ '&')) u
      rw [hrest] at hhead
      simpa using hhead
    rw [hrest, hc] at hsplit
    refine ⟨formOfText t, ?_⟩
    rw [← formOfText_cons hn hnone, List.append_assoc, List.cons_append, hsplit]

/-- What a URL parser keeps of a text that is not at the end of the URL. -/
def cleanInner (s : List Char) : List Char :=
  (s.filter fun c => !isTabOrNewline c).takeWhile (· ≠ '#')

/-- A cleaned text, from a character on that is kept. -/
theorem cleanText_append_cons (xs : List Char) {c : Char} (hc : isC0OrSpace c = false)
    (hhash : c ≠ '#') (hxs : '#' ∉ xs) (ys : List Char) :
    cleanText (xs ++ c :: ys) = (xs.filter fun c => !isTabOrNewline c) ++ c :: cleanText ys := by
  have hblank : isTabOrNewline c = false := by
    cases h : isTabOrNewline c with
    | false => rfl
    | true =>
      simp only [isTabOrNewline, Bool.or_eq_true, decide_eq_true_eq] at h
      rcases h with (rfl | rfl) | rfl <;> exact nomatch hc
  have hnone : '#' ∉ xs.filter fun c => !isTabOrNewline c := fun hmem =>
      hxs (List.mem_of_mem_filter hmem)
  unfold cleanText
  rw [trimEnd_append_cons xs hc, List.filter_append, List.filter_cons_of_pos (by rw [hblank]; rfl),
    takeWhile_ne_append hnone, List.takeWhile_cons_of_pos (by simp [hhash])]

/-- Nothing is filtered out of a literal value. -/
theorem Literal.filter_eq {v : List Char} (h : Literal v) :
    (v.filter fun c => !isTabOrNewline c) = v := by
  apply List.filter_eq_self.mpr
  intro c hc
  rw [h.blank c hc]
  rfl

/-- A literal value is clean inside. -/
theorem Literal.cleanInner_eq {v : List Char} (h : Literal v) : cleanInner v = v := by
  unfold cleanInner
  rw [h.filter_eq]
  apply List.takeWhile_eq_self_iff.mpr
  intro c hc
  exact decide_eq_true (h.separator c hc).1

/-- A literal value has no delimiter in it. -/
theorem Literal.not_mem {v : List Char} (h : Literal v) : '#' ∉ v ∧ '&' ∉ v :=
  ⟨fun hmem => (h.separator _ hmem).1 rfl, fun hmem => (h.separator _ hmem).2.1 rfl⟩

/-- The name of a pair is clean. -/
theorem cleanText_pair {n : List Char} (hn : IsName n) (v : List Char) :
    cleanText (n ++ '=' :: v) = n ++ '=' :: cleanText v := by
  rw [cleanText_append_cons n (by decide) (by decide) hn.literal.not_mem.1, hn.literal.filter_eq]

/-- What a form parser sees of a value does not depend on what comes after it. -/
theorem takeWhile_amp (s t : List Char) :
    ((s ++ '&' :: t).takeWhile (· ≠ '#')).takeWhile (· ≠ '&') =
      (s.takeWhile (· ≠ '#')).takeWhile (· ≠ '&') := by
  induction s with
  | nil => rfl
  | cons c s ih =>
    by_cases hhash : c = '#'
    · subst hhash
      rfl
    · by_cases hamp : c = '&'
      · subst hamp
        rfl
      · simp only [List.cons_append, List.takeWhile_cons, ne_eq, hhash, hamp, not_false_eq_true,
          decide_true, if_true, ih]

/-- A pair with a literal value has no delimiter in it. -/
theorem not_mem_pair {n v : List Char} (hn : IsName n) (hv : Literal v) : '#' ∉ n ++ '=' :: v := by
  intro hmem
  rcases List.mem_append.mp hmem with hmem | hmem
  · exact hn.literal.not_mem.1 hmem
  · rcases List.mem_cons.mp hmem with heq | hmem
    · exact nomatch heq
    · exact hv.not_mem.1 hmem

/-- A first pair with a literal value leaves the others to themselves. -/
theorem formOfText_cleanText_cons {n v : List Char} (hn : IsName n) (hv : Literal v)
    (q : List Char × List Char) (ps : List (List Char × List Char)) :
    formOfText (cleanText (formText ((n, v) :: q :: ps))) =
      (n, v) :: formOfText (cleanText (formText (q :: ps))) := by
  rw [formText, cleanText_append_cons _ (by decide) (by decide) (not_mem_pair hn hv),
    List.filter_append, List.filter_cons_of_pos (by decide), hn.literal.filter_eq, hv.filter_eq,
    formOfText_cons hn hv.not_mem.2, hv.readText_eq]

/-- A form of literal values is given back. -/
theorem formOfText_of_literal {ps : List (List Char × List Char)} (hnames : ∀ p ∈ ps, IsName p.1)
    (h : AllLiteral ps) : formOfText (cleanText (formText ps)) = ps := by
  induction ps with
  | nil => rfl
  | cons p ps ih =>
    obtain ⟨n, v⟩ := p
    have hn : IsName n := hnames (n, v) List.mem_cons_self
    cases ps with
    | nil =>
      obtain ⟨hv, hend⟩ := h
      have hclean : cleanText v = v := by
        show cleanInner (trimEnd v) = v
        rw [hend, hv.cleanInner_eq]
      rw [formText, cleanText_pair hn, hclean, formOfText_single hn hv.not_mem.2, hv.readText_eq]
    | cons q ps =>
      obtain ⟨hv, hrest⟩ := h
      rw [formOfText_cleanText_cons hn hv,
        ih (fun p hp => hnames p (List.mem_cons_of_mem _ hp)) hrest]

/-- A form whose values are all found again has literal values only. -/
theorem literal_of_find {ps : List (List Char × List Char)} (hnames : ∀ p ∈ ps, IsName p.1)
    (hdistinct : (ps.map Prod.fst).Nodup)
    (h : ∀ p ∈ ps, (formOfText (cleanText (formText ps))).find? (fun q => q.1 = p.1) = some p) :
    AllLiteral ps := by
  induction ps with
  | nil => trivial
  | cons p ps ih =>
    obtain ⟨n, v⟩ := p
    have hn : IsName n := hnames (n, v) List.mem_cons_self
    have hfound := h (n, v) List.mem_cons_self
    cases ps with
    | nil =>
      -- the last value is also trimmed, since it ends the URL
      rw [formText, cleanText_pair hn] at hfound
      obtain ⟨_, hfirst⟩ := formOfText_first hn (cleanText v)
      rw [hfirst, List.find?_cons_of_pos (by simp)] at hfound
      have hread : readText (visible (trimEnd v)) = v := congrArg Prod.snd (Option.some.inj hfound)
      have hcount := (asciiCount_readText_le (visible (trimEnd v))).1
      have hvisible : asciiCount (visible (trimEnd v)) ≤ asciiCount (trimEnd v) :=
        (visible_sublist _).countP_le
      rw [hread] at hcount
      have hend := endsLiteral_of_trimEnd (s := v) (by omega)
      rw [hend] at hread
      exact ⟨literal_of_readText hread, hend⟩
    | cons q ps =>
      -- what is seen of a value that others follow does not depend on them
      have hv : Literal v := by
        have hclean : cleanText (formText ((n, v) :: q :: ps)) =
            n ++ '=' :: ((v.filter fun c => !isTabOrNewline c) ++
              '&' :: (trimEnd (formText (q :: ps))).filter fun c => !isTabOrNewline c).takeWhile
                (· ≠ '#') := by
          rw [formText, List.append_assoc, List.cons_append, cleanText_append_cons n (by decide)
            (by decide) hn.literal.not_mem.1, hn.literal.filter_eq, cleanText,
            trimEnd_append_cons v (by decide), List.filter_append,
            List.filter_cons_of_pos (by decide)]
        obtain ⟨_, hfirst⟩ := formOfText_first hn
          (((v.filter fun c => !isTabOrNewline c) ++
            '&' :: (trimEnd (formText (q :: ps))).filter fun c =>
              !isTabOrNewline c).takeWhile (· ≠ '#'))
        rw [hclean, hfirst, List.find?_cons_of_pos (by simp), takeWhile_amp] at hfound
        exact literal_of_readText (congrArg Prod.snd (Option.some.inj hfound))
      refine ⟨hv, ih (fun p hp => hnames p (List.mem_cons_of_mem _ hp))
        (List.nodup_cons.mp hdistinct).2 ?_⟩
      intro p hp
      have hfound := h p (List.mem_cons_of_mem _ hp)
      -- the pairs that follow are found behind the first, whose name is another
      have hne : n ≠ p.1 := by
        intro heq
        have hnot : n ∉ (q :: ps).map Prod.fst := (List.nodup_cons.mp hdistinct).1
        rw [heq] at hnot
        exact hnot (List.mem_map_of_mem hp)
      rw [formOfText_cleanText_cons hn hv, List.find?_cons_of_neg (by simp [hne])] at hfound
      exact hfound

/-- The query of a URL starts at its first `?`. -/
theorem queryOf_append {c : Char} {base : List Char} (hc : isC0OrSpace c = false)
    (hquestion : '?' ∉ c :: base) (hhash : '#' ∉ c :: base) (t : List Char) :
    queryOf ((c :: base) ++ '?' :: t) = some (encodeQuery (cleanText t)) := by
  have hstart : ((c :: base) ++ '?' :: t).dropWhile isC0OrSpace = (c :: base) ++ '?' :: t :=
    List.dropWhile_cons_of_neg (by simp [hc])
  have hbefore : beforeFragment ((c :: base) ++ '?' :: t) =
      ((c :: base).filter fun c => !isTabOrNewline c) ++ '?' :: cleanText t := by
    unfold beforeFragment
    rw [hstart]
    exact cleanText_append_cons (c :: base) (by decide) (by decide) hhash t
  have hnone : '?' ∉ (c :: base).filter fun c => !isTabOrNewline c :=
    fun hmem => hquestion (List.mem_of_mem_filter hmem)
  unfold queryOf
  rw [hbefore, dropWhile_ne_append hnone]
  rfl

/-- A URL without a `?` has no query. -/
theorem queryOf_of_not_mem {url : List Char} (h : '?' ∉ url) : queryOf url = none := by
  -- all the steps before only drop characters
  have hsub : (beforeFragment url).Sublist url :=
    (List.takeWhile_sublist _).trans (List.filter_sublist.trans
      ((List.rdropWhile_prefix isC0OrSpace _).sublist.trans (List.dropWhile_sublist isC0OrSpace)))
  have hnone : (beforeFragment url).dropWhile (· ≠ '?') = [] := by
    rw [List.dropWhile_eq_nil_iff]
    intro c hc
    apply decide_eq_true
    intro heq
    exact h (heq ▸ hsub.subset hc)
  unfold queryOf
  rw [hnone]

end FormUrlEncoded
