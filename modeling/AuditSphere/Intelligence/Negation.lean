import Mathlib.Data.List.Infix
import AuditSphere.Intelligence.Filters

/-!
# Negations

A query that asks for what is not there is turned down, unless it asks for records without
exceptions or without findings. One such phrase lets a prompt pass with any other negation
in it: the negations of an accepted prompt are reflected in the query exactly if each of
them begins such a phrase, or there is no such phrase (`interpretIntelligenceQuery_iff`).
-/

namespace AuditSphere.Intelligence

/-! ### Matches -/

/-- The words of a match. -/
inductive Spells : List Item → List String → Prop where
  | nil : Spells [] []
  | skip {item : Item} {items : List Item} {p : List String} (hoptional : item.isOptional = true)
    (h : Spells items p) : Spells (item :: items) p
  | cons {item : Item} {items : List Item} {w : String} {p : List String} (hword : item.words.all (w ∈ ·) = true)
    (h : Spells items p) : Spells (item :: items) (w :: p)

theorem matchesAt_iff (items : List Item) (q : List String) :
    matchesAt items q = true ↔ ∃ p, p <+: q ∧ Spells items p := by
  constructor
  · intro h
    fun_induction matchesAt items q with
    | case1 q => exact ⟨[], List.nil_prefix, .nil⟩
    | case2 item items ih =>
      obtain ⟨hoptional, h⟩ := Bool.and_eq_true_iff.mp h
      obtain ⟨p, hp, hspells⟩ := ih h
      exact ⟨p, hp, .skip hoptional hspells⟩
    | case3 item items w q ihskip ih =>
      obtain h | h := Bool.or_eq_true_iff.mp h
      · obtain ⟨hoptional, h⟩ := Bool.and_eq_true_iff.mp h
        obtain ⟨p, hp, hspells⟩ := ihskip h
        exact ⟨p, hp, .skip hoptional hspells⟩
      · obtain ⟨hword, h⟩ := Bool.and_eq_true_iff.mp h
        obtain ⟨p, hp, hspells⟩ := ih h
        exact ⟨w :: p, List.cons_prefix_cons.mpr ⟨rfl, hp⟩, .cons hword hspells⟩
  · rintro ⟨p, hp, hspells⟩
    induction hspells generalizing q with
    | nil => cases q <;> rfl
    | skip hoptional _ ih => cases q <;> simp [matchesAt, hoptional, ih _ hp]
    | cons hword _ ih =>
      cases q with
      | nil => exact absurd (List.prefix_nil.mp hp) (List.cons_ne_nil _ _)
      | cons w' q =>
        obtain ⟨rfl, htail⟩ := List.cons_prefix_cons.mp hp
        simp [matchesAt, hword, ih q htail]

/-- `test` finds the words of a match somewhere. -/
theorem occurs_iff (items : List Item) (q : List String) : occurs items q = true ↔ ∃ p, p <:+: q ∧ Spells items p := by
  rw [occurs, List.any_eq_true]
  constructor
  · rintro ⟨rest, hrest, h⟩
    obtain ⟨p, hp, hspells⟩ := (matchesAt_iff items rest).mp h
    exact ⟨p, hp.isInfix.trans ((List.mem_tails _ _).mp hrest).isInfix, hspells⟩
  · rintro ⟨p, ⟨before, after, rfl⟩, hspells⟩
    rw [List.append_assoc]
    exact ⟨p ++ after, (List.mem_tails _ _).mpr (List.suffix_append _ _),
      (matchesAt_iff items _).mpr ⟨p, List.prefix_append _ _, hspells⟩⟩

/-! ### Phrases -/

/-- The negative words. -/
def NEGATIVE : List String := ["not", "without", "excluding", "except", "no"]

/-- Without something, or no such thing, that is qualified or not. -/
inductive IsPhrase (adverb : String) (nouns : List String) : List String → Prop where
  | plain {w noun : String} (hw : w ∈ ["without", "no"]) (hnoun : noun ∈ nouns) : IsPhrase adverb nouns [w, noun]
  | qualified {w noun : String} (hw : w ∈ ["without", "no"]) (hnoun : noun ∈ nouns) :
    IsPhrase adverb nouns [w, adverb, noun]

/-- Without, or no, (recorded) exceptions. -/
def IsExceptions : List String → Prop := IsPhrase "recorded" ["exception", "exceptions"]

/-- Without, or no, (linked) findings. -/
def IsFindings : List String → Prop := IsPhrase "linked" ["finding", "findings"]

theorem spells_phrase {adverb : String} {nouns p : List String} :
    Spells [word ["without", "no"], maybe [adverb], word nouns] p ↔ IsPhrase adverb nouns p := by
  constructor
  · rintro (_ | ⟨h, _⟩ | ⟨hw, _ | ⟨_, _ | ⟨h, _⟩ | ⟨hnoun, ⟨⟩⟩⟩ | ⟨hadverb, _ | ⟨h, _⟩ | ⟨hnoun, ⟨⟩⟩⟩⟩)
    · cases h
    · cases h
    · exact .plain (by simpa [word] using hw) (by simpa [word] using hnoun)
    · cases h
    · obtain rfl : _ = adverb := by simpa [maybe] using hadverb
      exact .qualified (by simpa [word] using hw) (by simpa [word] using hnoun)
  · rintro (⟨hw, hnoun⟩ | ⟨hw, hnoun⟩)
    · exact .cons (by simpa [word] using hw) (.skip rfl (.cons (by simpa [word] using hnoun) .nil))
    · exact .cons (by simpa [word] using hw) (.cons (by simp [maybe]) (.cons (by simpa [word] using hnoun) .nil))

theorem asksWithoutExceptions_iff (q : List String) :
    asksWithoutExceptions q = true ↔ ∃ p, p <:+: q ∧ IsExceptions p := by
  rw [asksWithoutExceptions, occurs_iff]
  exact exists_congr fun p => and_congr_right fun _ => spells_phrase

theorem asksWithoutFindings_iff (q : List String) : asksWithoutFindings q = true ↔ ∃ p, p <:+: q ∧ IsFindings p := by
  rw [asksWithoutFindings, occurs_iff]
  exact exists_congr fun p => and_congr_right fun _ => spells_phrase

example : asksWithoutExceptions (normal "Show controls without recorded exceptions") = true := by decide +kernel

example : asksWithoutExceptions (normal "Show controls excluding exceptions") = false := by decide +kernel

/-- No phrase has a negative word but its first. -/
theorem tail_of_phrase {p : List String} (h : IsExceptions p ∨ IsFindings p) : ∀ w ∈ p.tail, w ∉ NEGATIVE := by
  have hphrase {adverb : String} {nouns : List String} (hadverb : adverb ∉ NEGATIVE) (hnouns : ∀ w ∈ nouns, w ∉ NEGATIVE)
      (h : IsPhrase adverb nouns p) : ∀ w ∈ p.tail, w ∉ NEGATIVE := by
    obtain ⟨-, hnoun⟩ | ⟨-, hnoun⟩ := h
    · exact List.forall_mem_singleton.mpr (hnouns _ hnoun)
    · exact List.forall_mem_cons.mpr ⟨hadverb, List.forall_mem_singleton.mpr (hnouns _ hnoun)⟩
  exact h.elim (hphrase (by decide) (by decide)) (hphrase (by decide) (by decide))

/-! ### Negations of a query -/

/-- Every negative word of a query is part of a phrase that is reflected in it. -/
def ReflectsNegations (query : IntelligenceQuery) : Prop :=
  ∀ before w after, query.q = before ++ w :: after → w ∈ NEGATIVE →
    ∃ start phrase rest, query.q = start ++ phrase ++ rest ∧
      start.length ≤ before.length ∧ before.length < start.length + phrase.length ∧
      (IsExceptions phrase ∧ query.withoutExceptions = true ∨ IsFindings phrase ∧ query.withoutFindings = true)

/-- A negative word within a phrase is its first. -/
theorem starts_of_within {before after start phrase rest : List String} {w : String} (hw : w ∈ NEGATIVE)
    (hphrase : IsExceptions phrase ∨ IsFindings phrase) (h : start ++ phrase ++ rest = before ++ w :: after)
    (hfrom : start.length ≤ before.length) (hto : before.length < start.length + phrase.length) :
    phrase <+: w :: after := by
  rw [List.append_assoc] at h
  obtain ⟨mid, rfl⟩ := (List.prefix_of_prefix_length_le ⟨_, h⟩ (List.prefix_append _ _) hfrom :)
  rw [List.append_assoc, List.append_cancel_left_eq] at h
  cases mid with
  | nil => exact ⟨rest, h⟩
  | cons m mid =>
    -- the word would be in the tail of the phrase
    have hin : w ∈ phrase.tail := by
      rw [List.length_append] at hto
      have hget : (phrase ++ rest)[(m :: mid).length]? = some w := by
        rw [h, List.getElem?_append_right (Nat.le_refl _), Nat.sub_self]
        rfl
      rw [List.getElem?_append_left (by omega)] at hget
      rw [List.mem_iff_getElem?]
      exact ⟨mid.length, by rw [List.getElem?_tail]; exact hget⟩
    exact absurd hw (tail_of_phrase hphrase w hin)

theorem negative_iff (q : List String) :
    occurs [word ["not", "without", "excluding", "except", "no"]] q = true ↔ ∃ w ∈ q, w ∈ NEGATIVE := by
  rw [occurs_iff]
  constructor
  · rintro ⟨p, hp, _ | ⟨h, _⟩ | ⟨hw, _⟩⟩
    · cases h
    · exact ⟨_, hp.subset List.mem_cons_self, by simpa [word, NEGATIVE] using hw⟩
  · rintro ⟨w, hw, hnegative⟩
    obtain ⟨before, after, rfl⟩ := List.append_of_mem hw
    exact ⟨[w], ⟨before, after, by simp⟩, .cons (by simpa [word, NEGATIVE] using hnegative) .nil⟩

/-- A prompt with a phrase, or without negative words, is accepted; what is left out is reflected. -/
theorem interpretIntelligenceQuery_ok {dto : CopilotRequest} {now : Date} {query : IntelligenceQuery}
    (h : interpretIntelligenceQuery dto now = .ok query) :
    ((∃ p, p <:+: normal dto.prompt ∧ (IsExceptions p ∨ IsFindings p)) ∨ ∀ w ∈ normal dto.prompt, w ∉ NEGATIVE) ∧
      query.q = normal dto.prompt ∧ query.withoutExceptions = asksWithoutExceptions (normal dto.prompt) ∧
      query.withoutFindings = asksWithoutFindings (normal dto.prompt) := by
  rw [interpretIntelligenceQuery] at h
  split at h
  · cases h
  · rename_i hpasses
    cases h
    refine ⟨?_, rfl, rfl, rfl⟩
    by_contra hneither
    rw [not_or, not_exists] at hneither
    obtain ⟨hphrase, hnegative⟩ := hneither
    refine hpasses (Bool.and_eq_true_iff.mpr ⟨Bool.and_eq_true_iff.mpr ⟨(negative_iff _).mpr ?_, ?_⟩, ?_⟩)
    · push Not at hnegative
      exact hnegative
    · rw [Bool.not_eq_true', ← Bool.not_eq_true, asksWithoutExceptions_iff]
      rintro ⟨p, hp, hexceptions⟩
      exact hphrase p ⟨hp, .inl hexceptions⟩
    · rw [Bool.not_eq_true', ← Bool.not_eq_true, asksWithoutFindings_iff]
      rintro ⟨p, hp, hfindings⟩
      exact hphrase p ⟨hp, .inr hfindings⟩

/-- A prompt with a phrase is accepted. -/
theorem accepted_of_phrase {dto : CopilotRequest} (now : Date)
    (h : ∃ p, p <:+: normal dto.prompt ∧ (IsExceptions p ∨ IsFindings p)) :
    ∃ query, interpretIntelligenceQuery dto now = .ok query := by
  obtain ⟨p, hp, hexceptions | hfindings⟩ := h
  · have hasks := (asksWithoutExceptions_iff _).mpr ⟨p, hp, hexceptions⟩
    exact ⟨_, if_neg (by simp [hasks])⟩
  · have hasks := (asksWithoutFindings_iff _).mpr ⟨p, hp, hfindings⟩
    exact ⟨_, if_neg (by simp [hasks])⟩

/-- **A negation is ignored** if it stands beside a phrase that is understood: the negative words of an accepted prompt
are reflected exactly if all of them begin such phrases, or there is none. -/
theorem interpretIntelligenceQuery_iff (dto : CopilotRequest) (now : Date) :
    (∀ query, interpretIntelligenceQuery dto now = .ok query → query.q = normal dto.prompt ∧ ReflectsNegations query) ↔
      (∀ p, p <:+: normal dto.prompt → ¬ (IsExceptions p ∨ IsFindings p)) ∨
        ∀ before w after, normal dto.prompt = before ++ w :: after → w ∈ NEGATIVE →
          ∃ p, p <+: w :: after ∧ (IsExceptions p ∨ IsFindings p) := by
  constructor
  · intro h
    rw [or_iff_not_imp_left]
    intro hphrase
    push Not at hphrase
    obtain ⟨query, hquery⟩ := accepted_of_phrase now hphrase
    obtain ⟨hq, hreflects⟩ := h query hquery
    intro before w after hsplit hw
    obtain ⟨start, phrase, rest, hplace, hfrom, hto, hkind⟩ := hreflects before w after (hq.trans hsplit) hw
    have hphrase := hkind.imp And.left And.left
    exact ⟨phrase, starts_of_within hw hphrase (hplace.symm.trans (hq.trans hsplit)) hfrom hto, hphrase⟩
  · intro h query hquery
    obtain ⟨haccepted, hq, hexceptions, hfindings⟩ := interpretIntelligenceQuery_ok hquery
    refine ⟨hq, fun before w after hsplit hw => ?_⟩
    rw [hq] at hsplit ⊢
    have hmem : w ∈ normal dto.prompt := hsplit ▸ List.mem_append_right _ List.mem_cons_self
    obtain hnone | hall := h
    · -- without a phrase, negative words are not accepted
      obtain ⟨p, hp, hphrase⟩ | hnegative := haccepted
      · exact absurd hphrase (hnone p hp)
      · exact absurd hw (hnegative w hmem)
    · obtain ⟨p, ⟨rest, hrest⟩, hphrase⟩ := hall before w after hsplit hw
      have hplace : normal dto.prompt = before ++ p ++ rest := by rw [List.append_assoc, hrest, hsplit]
      have hinfix : p <:+: normal dto.prompt := ⟨before, rest, hplace.symm⟩
      have hlength : 0 < p.length := by
        obtain (_ | _) | (_ | _) := hphrase <;> exact Nat.succ_pos _
      refine ⟨before, p, rest, hplace, Nat.le_refl _, Nat.lt_add_of_pos_right hlength, ?_⟩
      rw [hexceptions, hfindings]
      exact hphrase.imp (fun hp => ⟨hp, (asksWithoutExceptions_iff _).mpr ⟨p, hinfix, hp⟩⟩)
        fun hp => ⟨hp, (asksWithoutFindings_iff _).mpr ⟨p, hinfix, hp⟩⟩

/-- A prompt with two negations, of which one is understood. -/
theorem excluding_ignored : ¬ ∀ dto now query, interpretIntelligenceQuery dto now = .ok query →
    query.q = normal dto.prompt ∧ ReflectsNegations query := by
  intro h
  have hwords : normal "Show controls without exceptions excluding procurement" =
      ["show", "controls", "without", "exceptions", "excluding", "procurement"] := by
    decide +kernel
  obtain ⟨query, hquery⟩ := @accepted_of_phrase (promptRequest "Show controls without exceptions excluding procurement")
    0 (by
      rw [promptRequest, hwords]
      exact ⟨["without", "exceptions"], ⟨["show", "controls"], ["excluding", "procurement"], rfl⟩,
        .inl (.plain (by decide) (by decide))⟩)
  obtain ⟨hq, hreflects⟩ := h _ _ query hquery
  rw [promptRequest, hwords] at hq
  obtain ⟨start, phrase, rest, hplace, hfrom, hto, hkind⟩ := hreflects ["show", "controls", "without", "exceptions"]
    "excluding" ["procurement"] hq (by decide)
  have hphrase := hkind.imp And.left And.left
  have hstarts := starts_of_within (by decide) hphrase (hplace.symm.trans hq) hfrom hto
  -- no phrase begins with the word
  obtain (⟨hw, -⟩ | ⟨hw, -⟩) | (⟨hw, -⟩ | ⟨hw, -⟩) := hphrase <;>
    exact absurd ((List.cons_prefix_cons.mp hstarts).1 ▸ hw) (by decide)

end AuditSphere.Intelligence
