import SymbolRename.Proofs.Rename.Tokens

/-!
# The engine on words

The two passes of the engine amount to one map over the tokens of the text: a run that starts with a
bare prefix is put under the namespace, and everything else stays.  What comes out has no bare
prefix at the start of a word, so that the engine leaves it alone.
-/

namespace SymbolRename

namespace Token

/-- What becomes of a token. -/
def namespaced : Token → Token
  | .word run =>
    if "MA_".toList.isPrefixOf run then .word ("SOLOUD_".toList ++ run)
    else if "ma_".toList.isPrefixOf run then .word ("soloud_".toList ++ run)
    else .word run
  | .other c => .other c

/-- Whether a token is a name that is not under the namespace. -/
def isBare (token : Token) : Bool :=
  token.startsWith "MA_".toList || token.startsWith "ma_".toList

end Token

/-! ## Words stay words -/

theorem WordSplit.startsInWord_extend {text added : List Char} {ts : List Token}
    (h : WordSplit text ts) (literal : List Char) (hadded : ∀ c ∈ added, isWordChar c = true) :
    startsInWord ((ts.map (Token.extend literal added)).flatMap Token.chars) =
      startsInWord text := by
  cases h with
  | nil => rfl
  | other outside later => rfl
  | @word run text ts nonempty inside stops later =>
      obtain ⟨c, run, rfl⟩ := List.exists_cons_of_ne_nil nonempty
      have hc : isWordChar c = true := inside c (by simp)
      cases added with
      | nil => simp [Token.extend, Token.chars, startsInWord]
      | cons a added =>
          have ha : isWordChar a = true := hadded a (by simp)
          simp only [List.map_cons, Token.extend, List.flatMap_cons, Token.chars]
          split <;> simp [startsInWord, ha, hc]

/-- Word characters in front of a run make it longer and leave the cut as it is. -/
theorem WordSplit.extend {text added : List Char} {ts : List Token}
    (h : WordSplit text ts) (literal : List Char) (hadded : ∀ c ∈ added, isWordChar c = true) :
    WordSplit ((ts.map (Token.extend literal added)).flatMap Token.chars)
      (ts.map (Token.extend literal added)) := by
  induction h with
  | nil => exact .nil
  | other outside later ih => exact .other outside ih
  | @word run text ts nonempty inside stops later ih =>
      have hstops := (later.startsInWord_extend literal hadded).trans stops
      simp only [List.map_cons, Token.extend, List.flatMap_cons, Token.chars]
      split
      · have hinside : ∀ c ∈ added ++ run, isWordChar c = true := by
          intro c hc
          rcases List.mem_append.mp hc with hc | hc
          · exact hadded c hc
          · exact inside c hc
        exact .word (by simp [nonempty]) hinside hstops ih
      · exact .word nonempty inside hstops ih

theorem RenameRule.Prepends.split_rename {rule : RenameRule} {text added : List Char}
    {ts : List Token} (h : rule.Prepends added) (hsplit : WordSplit text ts) :
    WordSplit (rule.rename text) (ts.map (Token.extend rule.literal added)) := by
  rw [h.rename_eq hsplit]
  exact hsplit.extend rule.literal h.inside

/-! ## The two rules -/

theorem macroRule_prepends : macroRule.Prepends "SOLOUD_".toList where
  pattern := ⟨by decide, List.all_eq_true.mp (by decide), by simp [macroRule]⟩
  replacement := rfl
  inside := List.all_eq_true.mp (by decide)

theorem identifierRule_prepends : identifierRule.Prepends "soloud_".toList where
  pattern := ⟨by decide, List.all_eq_true.mp (by decide), by
    rintro guard ⟨⟩
    decide⟩
  replacement := rfl
  inside := List.all_eq_true.mp (by decide)

/-- The second rule does not meet what the first one has changed. -/
theorem Token.extend_extend (token : Token) :
    (token.extend macroRule.literal "SOLOUD_".toList).extend identifierRule.literal
        "soloud_".toList = token.namespaced := by
  cases token with
  | other c => rfl
  | word run =>
      by_cases hupper : "MA_".toList.isPrefixOf run = true
      · have hother : identifierRule.literal.isPrefixOf ("SOLOUD_".toList ++ run) = false := rfl
        simp only [Token.extend, Token.namespaced]
        rw [if_pos hupper, if_pos (show macroRule.literal.isPrefixOf run = true from hupper),
          hother, if_neg Bool.false_ne_true]
      · simp only [Token.extend, Token.namespaced]
        rw [if_neg hupper, if_neg (show ¬macroRule.literal.isPrefixOf run = true from hupper)]
        exact apply_ite Token.word _ _ _

theorem macroRule_spares_identifiers : macroRule.Spares identifierRule.literal :=
  ⟨fun _ ↦ rfl, fun _ ↦ rfl⟩

namespace WordSplit

variable {text : List Char} {ts : List Token}

theorem after_macros (h : WordSplit text ts) :
    WordSplit (macroRule.rename text)
      (ts.map (Token.extend macroRule.literal "SOLOUD_".toList)) :=
  macroRule_prepends.split_rename h

theorem after_namespaceText (h : WordSplit text ts) :
    WordSplit (namespaceText text).text (ts.map Token.namespaced) := by
  have hboth := identifierRule_prepends.split_rename h.after_macros
  simp only [List.map_map, Function.comp_def, Token.extend_extend] at hboth
  rw [namespaceText_eq]
  exact hboth

theorem text_namespaceText (h : WordSplit text ts) :
    (namespaceText text).text = ts.flatMap fun token ↦ token.namespaced.chars := by
  rw [← h.after_namespaceText.flatMap_chars, List.flatMap_map]

theorem macros_namespaceText (h : WordSplit text ts) :
    (namespaceText text).macros = ts.countP (Token.startsWith "MA_".toList) := by
  rw [namespaceText_eq]
  exact RenameRule.count_eq macroRule_prepends.pattern h

theorem identifiers_namespaceText (h : WordSplit text ts) :
    (namespaceText text).identifiers = ts.countP (Token.startsWith "ma_".toList) := by
  have hcount := RenameRule.count_eq identifierRule_prepends.pattern h.after_macros
  rw [List.countP_map] at hcount
  simp only [Function.comp_def,
    macroRule_prepends.startsWith_extend macroRule_spares_identifiers] at hcount
  rw [namespaceText_eq]
  exact hcount

end WordSplit

/-- The engine is the map of `Token.namespaced` over the maximal runs of word characters of a text
and the characters between them, and it counts the runs of the text that it changes. -/
theorem namespaceText_eq_tokens (text : List Char) :
    (∀ split, WordSplit text split ↔ split = tokens text) ∧
      (namespaceText text).text = ((tokens text).flatMap fun token ↦ token.namespaced.chars) ∧
      (namespaceText text).macros = (tokens text).countP (Token.startsWith "MA_".toList) ∧
      (namespaceText text).identifiers = (tokens text).countP (Token.startsWith "ma_".toList) := by
  have h := wordSplit_tokens text
  refine ⟨fun split ↦ wordSplit_iff, ?_, ?_, ?_⟩
  · exact h.text_namespaceText
  · exact h.macros_namespaceText
  · exact h.identifiers_namespaceText

/-! ## Nothing is left to do -/

theorem Token.isBare_namespaced (token : Token) : token.namespaced.isBare = false := by
  cases token with
  | other c => rfl
  | word run =>
      simp only [Token.namespaced]
      split
      · rfl
      · next hupper =>
        split
        · rfl
        · next hlower =>
          simp only [Token.isBare, Token.startsWith, Bool.or_eq_false_iff]
          exact ⟨Bool.eq_false_iff.mpr hupper, Bool.eq_false_iff.mpr hlower⟩

theorem Token.namespaced_of_isBare {token : Token} (h : token.isBare = false) :
    token.namespaced = token := by
  cases token with
  | other c => rfl
  | word run =>
      obtain ⟨hupper, hlower⟩ := Bool.or_eq_false_iff.mp h
      simp only [Token.startsWith] at hupper hlower
      simp only [Token.namespaced, hupper, hlower, Bool.false_eq_true, if_false]

theorem RenameRule.length_offsetsFrom (rule : RenameRule) (offset : Nat) (marks : List Mark) :
    (rule.offsetsFrom offset marks).length = marks.count (.hit false) := by
  induction marks generalizing offset with
  | nil => rfl
  | cons mark marks ih =>
      by_cases hmark : mark = .hit false
      · simp [offsetsFrom, hmark, ih]
      · simp [offsetsFrom, hmark, ih]

theorem RenameRule.length_offsets (rule : RenameRule) (text : List Char) :
    (rule.offsets text).length = rule.count text :=
  rule.length_offsetsFrom 0 (rule.marks text)

namespace WordSplit

variable {text : List Char} {ts : List Token}

theorem countP_startsWith (literal : List Char)
    (hnone : ∀ token ∈ ts, token.startsWith literal = false) :
    ts.countP (Token.startsWith literal) = 0 := by
  rw [List.countP_eq_zero]
  intro token htoken
  exact Bool.eq_false_iff.mp (hnone token htoken)

theorem offsets_eq_nil {rule : RenameRule} (pattern : WordPattern rule.literal rule.guard?)
    (h : WordSplit text ts) (hnone : ∀ token ∈ ts, token.startsWith rule.literal = false) :
    rule.offsets text = [] := by
  rw [← List.length_eq_zero_iff, RenameRule.length_offsets, RenameRule.count_eq pattern h]
  exact countP_startsWith rule.literal hnone

theorem bareOffsets_eq_nil (h : WordSplit text ts) (hbare : ∀ token ∈ ts, token.isBare = false) :
    bareOffsets text = [] := by
  have hmacros : macroRule.offsets text = [] :=
    h.offsets_eq_nil macroRule_prepends.pattern fun token htoken ↦
      (Bool.or_eq_false_iff.mp (hbare token htoken)).1
  have hidentifiers : identifierRule.offsets text = [] :=
    h.offsets_eq_nil identifierRule_prepends.pattern fun token htoken ↦
      (Bool.or_eq_false_iff.mp (hbare token htoken)).2
  simp [bareOffsets, renameRules, hmacros, hidentifiers]

theorem namespaceText_eq_self (h : WordSplit text ts)
    (hbare : ∀ token ∈ ts, token.isBare = false) :
    namespaceText text = ⟨text, false, 0, 0⟩ := by
  have htext : (namespaceText text).text = text := by
    have hmap : ts.map Token.namespaced = ts.map id :=
      List.map_congr_left fun token htoken ↦ Token.namespaced_of_isBare (hbare token htoken)
    rw [← h.after_namespaceText.flatMap_chars, hmap, List.map_id, h.flatMap_chars]
  have hmacros : (namespaceText text).macros = 0 :=
    h.macros_namespaceText.trans <| countP_startsWith _ fun token htoken ↦
      (Bool.or_eq_false_iff.mp (hbare token htoken)).1
  have hidentifiers : (namespaceText text).identifiers = 0 :=
    h.identifiers_namespaceText.trans <| countP_startsWith _ fun token htoken ↦
      (Bool.or_eq_false_iff.mp (hbare token htoken)).2
  have hchanged : (namespaceText text).changed = false := by
    change ((namespaceText text).text != text) = false
    rw [htext, bne_self_eq_false]
  calc
    namespaceText text = ⟨(namespaceText text).text, (namespaceText text).changed,
        (namespaceText text).macros, (namespaceText text).identifiers⟩ := rfl
    _ = ⟨text, false, 0, 0⟩ := by rw [htext, hchanged, hmacros, hidentifiers]

end WordSplit

theorem isBare_of_mem_map_namespaced (ts : List Token) :
    ∀ token ∈ ts.map Token.namespaced, token.isBare = false := by
  intro token htoken
  obtain ⟨before, _, rfl⟩ := List.mem_map.mp htoken
  exact before.isBare_namespaced

theorem namespaceText_text_namespaceText (text : List Char) :
    namespaceText (namespaceText text).text = ⟨(namespaceText text).text, false, 0, 0⟩ :=
  (wordSplit_tokens text).after_namespaceText.namespaceText_eq_self
    (isBare_of_mem_map_namespaced (tokens text))

/-- After a pass of the engine no bare name stands at a boundary, and a second pass changes nothing
and counts nothing. -/
theorem engine_complete_and_idempotent (text : List Char) :
    bareOffsets (namespaceText text).text = [] ∧
      (namespaceText (namespaceText text).text).text = (namespaceText text).text ∧
      (namespaceText (namespaceText text).text).changed = false ∧
      (namespaceText (namespaceText text).text).macros = 0 ∧
      (namespaceText (namespaceText text).text).identifiers = 0 := by
  have hsplit := (wordSplit_tokens text).after_namespaceText
  refine ⟨hsplit.bareOffsets_eq_nil (isBare_of_mem_map_namespaced (tokens text)), ?_⟩
  simp [namespaceText_text_namespaceText]

end SymbolRename
