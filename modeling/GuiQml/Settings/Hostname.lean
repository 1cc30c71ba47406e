import GuiQml.Settings.CoreSettings

/-!
# Host names

What `IsValidHostnameSyntax` accepts, against a grammar of labels. A byte stands as the character of its
number.
-/

namespace GuiQml.Settings

structure IsLabel (label : Str) : Prop where
  length : 1 ≤ label.length ∧ label.length ≤ 63
  chars : ∀ c ∈ label, c.isAlphanum = true ∨ c = '-'
  head : label.head? ≠ some '-'
  last : label.getLast? ≠ some '-'

/-- One or more labels, joined by single dots. -/
def JoinsLabels (name : Str) : Prop :=
  ∃ labels : List Str, labels ≠ [] ∧ name = ['.'].intercalate labels ∧ ∀ label ∈ labels, IsLabel label

/-- Digits and dots only, with at least one of each. -/
def IsNumeric (name : Str) : Prop :=
  (∀ c ∈ name, c = '.' ∨ c.isDigit = true) ∧ '.' ∈ name ∧ ∃ c ∈ name, c.isDigit = true

/-- `name` is what is left of `host` without the dot of the root. -/
structure IsHostname (host name : Str) : Prop where
  length : 1 ≤ host.length ∧ host.length ≤ 253
  no_nul : '\x00' ∉ host
  root : host = name ∨ host = name ++ ['.']
  labels : JoinsLabels name

/-! ## Labels -/

section Labels

variable {label pre rest host name : Str} {c previous : Char}

theorem IsLabel.no_dot (h : IsLabel label) : '.' ∉ label := by
  intro hdot
  rcases h.chars '.' hdot with halphanum | hdash
  · exact absurd halphanum (by decide)
  · exact absurd hdash (by decide)

theorem joinsLabels_iff : JoinsLabels name ↔ ∀ label ∈ name.splitOn '.', IsLabel label := by
  constructor
  · rintro ⟨labels, hne, rfl, hlabels⟩
    rwa [List.splitOn_intercalate '.' (fun label hlabel => (hlabels label hlabel).no_dot) hne]
  · intro h
    exact ⟨name.splitOn '.', List.splitOn_ne_nil '.' name, (List.intercalate_splitOn '.').symm, h⟩

/-- What a label may begin with. -/
structure BeginsLabel (pre : Str) : Prop where
  length : pre.length ≤ 63
  chars : ∀ c ∈ pre, c.isAlphanum = true ∨ c = '-'
  head : pre.head? ≠ some '-'

theorem beginsLabel_nil : BeginsLabel [] := ⟨by simp, by simp, by simp⟩

theorem isLabel_iff : IsLabel label ↔ BeginsLabel label ∧ 0 < label.length ∧ label.getLast? ≠ some '-' :=
  ⟨fun h => ⟨⟨h.length.2, h.chars, h.head⟩, h.length.1, h.last⟩,
    fun ⟨h, hpos, hlast⟩ => ⟨⟨hpos, h.length⟩, h.chars, h.head, hlast⟩⟩

theorem IsLabel.begins (h : IsLabel label) (hpre : pre <+: label) : BeginsLabel pre := by
  obtain ⟨rest, rfl⟩ := hpre
  refine ⟨?_, fun c hc => h.chars c (List.mem_append_left _ hc), fun hhead => h.head ?_⟩
  · have hlength := h.length.2
    rw [List.length_append] at hlength
    omega
  · simp [List.head?_append, hhead]

theorem beginsLabel_concat : BeginsLabel (pre ++ [c]) ↔
    BeginsLabel pre ∧ pre.length + 1 ≤ 63 ∧ (c.isAlphanum = true ∨ c = '-') ∧ (pre = [] → c ≠ '-') := by
  constructor
  · rintro ⟨hlength, hchars, hhead⟩
    rw [List.length_append, List.length_singleton] at hlength
    refine ⟨⟨by omega, fun d hd => hchars d (List.mem_append_left _ hd), fun hd => hhead ?_⟩, hlength,
      hchars c (by simp), ?_⟩
    · simp [List.head?_append, hd]
    · rintro rfl
      simpa using hhead
  · rintro ⟨h, hlength, hc, hfirst⟩
    refine ⟨by simpa using hlength, fun d hd => ?_, ?_⟩
    · rcases List.mem_append.mp hd with hd | hd
      · exact h.chars d hd
      · rwa [List.mem_singleton.mp hd]
    · cases pre with
      | nil => simpa using hfirst rfl
      | cons d pre => simpa using h.head

theorem first_label (hpre : '.' ∉ pre) (rest : Str) : ∃ label ∈ (pre ++ rest).splitOn '.', pre <+: label := by
  induction rest generalizing pre with
  | nil => exact ⟨pre, by simp [List.splitOn_eq_singleton hpre], List.prefix_rfl⟩
  | cons c rest ih =>
    by_cases hc : c = '.'
    · rw [hc, List.splitOn_append_cons_self_of_not_mem hpre]
      exact ⟨pre, List.mem_cons_self .., List.prefix_rfl⟩
    · obtain ⟨label, hlabel, hbegins⟩ := @ih (pre ++ [c]) (by simp [hpre, Ne.symm hc])
      rw [List.append_assoc] at hlabel
      exact ⟨label, hlabel, (List.prefix_append pre [c]).trans hbegins⟩

/-! ## The scan -/

/-- The scan has read `pre` of a label and goes on to accept labels only. -/
theorem validLabels_iff (hpre : BeginsLabel pre) (hdot : '.' ∉ pre)
    (hprevious : ∀ d, pre.getLast? = some d → previous = d) :
    validLabels pre.length previous rest = true ↔ ∀ label ∈ (pre ++ rest).splitOn '.', IsLabel label := by
  have hended : (0 < pre.length && previous ≠ '-') = true ↔ IsLabel pre := by
    rw [isLabel_iff]
    cases hlast : pre.getLast? with
    | none => simp [List.getLast?_eq_none_iff.mp hlast]
    | some d => simp [hpre, hprevious d hlast]
  induction rest generalizing pre previous with
  | nil =>
    rw [validLabels, hended, List.append_nil, List.splitOn_eq_singleton hdot]
    simp
  | cons c rest ih =>
    by_cases hc : c = '.'
    · subst hc
      rw [List.splitOn_append_cons_self_of_not_mem hdot, List.forall_mem_cons, ← hended]
      have hrest : validLabels 0 '.' rest = true ↔ ∀ label ∈ rest.splitOn '.', IsLabel label :=
        ih beginsLabel_nil (by simp) (by simp) (by simp [isLabel_iff])
      rw [validLabels, ← hrest]
      by_cases hpos : 0 < pre.length
      · by_cases hdash : previous = '-' <;> simp [hdash, Nat.ne_of_gt hpos, hpos]
      · simp [Nat.eq_zero_of_not_pos hpos]
    · have hmore : '.' ∉ pre ++ [c] := by simp [hdot, Ne.symm hc]
      have hassoc : pre ++ c :: rest = (pre ++ [c]) ++ rest := by simp
      by_cases hbegins : BeginsLabel (pre ++ [c])
      · obtain ⟨-, hlength, hchars, hfirst⟩ := beginsLabel_concat.mp hbegins
        have hnext : validLabels (pre ++ [c]).length c rest = true ↔
            ∀ label ∈ (pre ++ [c] ++ rest).splitOn '.', IsLabel label :=
          ih hbegins hmore (by simp) (by simp [isLabel_iff, hbegins])
        rw [hassoc, ← hnext, List.length_append, List.length_singleton, validLabels, if_neg hc, if_neg,
          if_neg, if_neg (by omega)]
        · simpa using hfirst
        · rcases hchars with halphanum | hdash <;> simp [*]
      · -- No label begins so, and the scan stops here.
        refine iff_of_false ?_ fun h => ?_
        · rw [validLabels, if_neg hc]
          split
          · exact Bool.false_ne_true
          next hchars =>
          split
          · exact Bool.false_ne_true
          next hfirst =>
          split
          · exact Bool.false_ne_true
          next hlength =>
          refine absurd (beginsLabel_concat.mpr ⟨hpre, by omega, ?_, ?_⟩) hbegins
          · by_contra hnone
            simp_all
          · rintro rfl
            simpa using hfirst
        · obtain ⟨label, hlabel, hprefix⟩ := first_label hmore rest
          exact hbegins ((h label (hassoc ▸ hlabel)).begins hprefix)

theorem validLabels_start : validLabels 0 '\x00' name = true ↔ JoinsLabels name := by
  rw [joinsLabels_iff]
  exact validLabels_iff beginsLabel_nil (by simp) (by simp)

/-! ## The check -/

theorem isDottedNumericHost_iff : isDottedNumericHost name = true ↔ IsNumeric name := by
  simp [isDottedNumericHost, IsNumeric, and_assoc]

theorem JoinsLabels.ne_nil (h : JoinsLabels name) : name ≠ [] := by
  rintro rfl
  have hempty := joinsLabels_iff.mp h [] (by simp [List.splitOn_nil])
  exact absurd hempty.length.1 (by decide)

theorem JoinsLabels.no_root (h : JoinsLabels name) : name.getLast? ≠ some '.' := by
  intro hlast
  obtain ⟨front, rfl⟩ := List.getLast?_eq_some_iff.mp hlast
  have hempty := joinsLabels_iff.mp h [] (by rw [List.splitOn_append_cons_self]; simp [List.splitOn_nil])
  exact absurd hempty.length.1 (by decide)

theorem trimTrailingRootDot_iff (h : JoinsLabels name) :
    trimTrailingRootDot host = name ↔ host = name ∨ host = name ++ ['.'] := by
  unfold trimTrailingRootDot
  constructor
  · split
    next hlast =>
      obtain ⟨front, rfl⟩ := List.getLast?_eq_some_iff.mp hlast
      rw [List.dropLast_concat]
      rintro rfl
      exact .inr rfl
    next => exact .inl
  · rintro (rfl | rfl)
    · exact if_neg h.no_root
    · rw [if_pos (by simp), List.dropLast_concat]

end Labels

/-- The check accepts what is made of labels, and is not numeric without the dot of the root. -/
theorem isValidHostnameSyntax_iff (host : Str) :
    isValidHostnameSyntax host = true ↔ ∃ name, IsHostname host name ∧ ¬IsNumeric name := by
  have hsplit : isValidHostnameSyntax host = true ↔ (host ≠ [] ∧ host.length ≤ 253 ∧ '\x00' ∉ host) ∧
      JoinsLabels (trimTrailingRootDot host) ∧ ¬IsNumeric (trimTrailingRootDot host) := by
    rw [← isDottedNumericHost_iff, ← validLabels_start]
    unfold isValidHostnameSyntax
    by_cases hname : trimTrailingRootDot host = []
    · simp [hname, validLabels]
    · simp [hname, and_assoc, and_left_comm, and_comm]
  rw [hsplit]
  constructor
  · rintro ⟨⟨hne, hlength, hnul⟩, hlabels, hnumeric⟩
    exact ⟨_, ⟨⟨List.length_pos_iff.mpr hne, hlength⟩, hnul, (trimTrailingRootDot_iff hlabels).mp rfl,
      hlabels⟩, hnumeric⟩
  · rintro ⟨name, h, hnumeric⟩
    obtain rfl := (trimTrailingRootDot_iff h.labels).mpr h.root
    exact ⟨⟨List.length_pos_iff.mp h.length.1, h.length.2, h.no_nul⟩, h.labels, hnumeric⟩

/-- A number with the dot of the root, which is digits and dots only, is accepted. -/
theorem not_numeric_rejected : ¬∀ host,
    isValidHostnameSyntax host = true ↔ (∃ name, IsHostname host name) ∧ ¬IsNumeric host := by
  intro h
  obtain ⟨-, hnumeric⟩ := (h ['1', '.']).mp (by decide)
  exact hnumeric (isDottedNumericHost_iff.mp (by decide))

end GuiQml.Settings
