import SymbolRename.Rename.Engine

/-!
# Texts as words

A text is cut in exactly one way into the maximal runs of its word characters and the characters
between them.  A scan for a literal of word characters can be read off these tokens one by one: it
marks the runs that start with the literal, and nothing else.  In particular no occurrence at a
boundary is ever guarded, and putting word characters in front of some runs keeps the cut.
-/

namespace SymbolRename

/-- A maximal run of word characters, or a character between two runs. -/
inductive Token where
  | word (run : List Char)
  | other (c : Char)
  deriving DecidableEq, Repr

namespace Token

def chars : Token → List Char
  | .word run => run
  | .other c => [c]

/-- Whether a token is a run that starts with `literal`. -/
def startsWith (literal : List Char) : Token → Bool
  | .word run => literal.isPrefixOf run
  | .other _ => false

/-- Puts `added` in front of a run that starts with `literal`. -/
def extend (literal added : List Char) : Token → Token
  | .word run => .word (if literal.isPrefixOf run then added ++ run else run)
  | .other c => .other c

def marks (literal : List Char) : Token → List Mark
  | .word run =>
    if literal.isPrefixOf run then .hit false :: (run.drop literal.length).map .char
    else run.map .char
  | .other c => [.char c]

end Token

/-! ## Cutting a text into tokens -/

def startsInWord : List Char → Bool
  | [] => false
  | c :: _ => isWordChar c

/-- A text and its maximal runs of word characters, with the characters between them. -/
inductive WordSplit : List Char → List Token → Prop where
  | nil : WordSplit [] []
  | other {c : Char} {text : List Char} {tokens : List Token}
      (outside : isWordChar c = false) (later : WordSplit text tokens) :
      WordSplit (c :: text) (.other c :: tokens)
  /-- A run ends only where the text ends or where a character follows that is not its like. -/
  | word {run text : List Char} {tokens : List Token}
      (nonempty : run ≠ []) (inside : ∀ c ∈ run, isWordChar c = true)
      (stops : startsInWord text = false) (later : WordSplit text tokens) :
      WordSplit (run ++ text) (.word run :: tokens)

/-- Puts a word character in front of the tokens of the text that follows it. -/
def consToWord (c : Char) : List Token → List Token
  | .word run :: tokens => .word (c :: run) :: tokens
  | tokens => .word [c] :: tokens

/-- The tokens of a text, in order. -/
def tokens : List Char → List Token
  | [] => []
  | c :: text => if isWordChar c then consToWord c (tokens text) else .other c :: tokens text

theorem WordSplit.consToWord {c : Char} {text : List Char} {ts : List Token}
    (hc : isWordChar c = true) (h : WordSplit text ts) :
    WordSplit (c :: text) (SymbolRename.consToWord c ts) := by
  cases h with
  | nil => exact @WordSplit.word [c] [] [] (by simp) (by simpa using hc) rfl .nil
  | @other d text ts outside later =>
      exact @WordSplit.word [c] (d :: text) (.other d :: ts) (by simp) (by simpa using hc) outside
        (.other outside later)
  | @word run text ts nonempty inside stops later =>
      exact @WordSplit.word (c :: run) text ts (by simp) (by simpa [hc] using inside) stops later

theorem wordSplit_tokens (text : List Char) : WordSplit text (tokens text) := by
  induction text with
  | nil => exact .nil
  | cons c text ih =>
      rw [tokens]
      split
      · next hc => exact ih.consToWord hc
      · next hc => exact .other (by simpa using hc) ih

theorem consToWord_tokens {c : Char} {text : List Char} (h : startsInWord text = false) :
    consToWord c (tokens text) = .word [c] :: tokens text := by
  cases text with
  | nil => rfl
  | cons d text =>
      have hd : isWordChar d = false := h
      simp [tokens, hd, consToWord]

theorem tokens_append {run text : List Char} (nonempty : run ≠ [])
    (inside : ∀ c ∈ run, isWordChar c = true) (stops : startsInWord text = false) :
    tokens (run ++ text) = .word run :: tokens text := by
  induction run with
  | nil => exact absurd rfl nonempty
  | cons c run ih =>
      have hc : isWordChar c = true := inside c (by simp)
      rw [List.cons_append, tokens, if_pos hc]
      cases run with
      | nil => exact consToWord_tokens stops
      | cons d run =>
          rw [ih (by simp) fun x hx ↦ inside x (List.mem_cons_of_mem c hx)]
          rfl

theorem WordSplit.eq_tokens {text : List Char} {ts : List Token} (h : WordSplit text ts) :
    ts = tokens text := by
  induction h with
  | nil => rfl
  | other outside later ih => simp [tokens, outside, ih]
  | word nonempty inside stops later ih => rw [tokens_append nonempty inside stops, ih]

theorem wordSplit_iff {text : List Char} {ts : List Token} :
    WordSplit text ts ↔ ts = tokens text :=
  ⟨WordSplit.eq_tokens, fun h ↦ h ▸ wordSplit_tokens text⟩

theorem WordSplit.flatMap_chars {text : List Char} {ts : List Token} (h : WordSplit text ts) :
    ts.flatMap Token.chars = text := by
  induction h with
  | nil => rfl
  | other outside later ih => simp [Token.chars, ih]
  | word nonempty inside stops later ih => simp [Token.chars, ih]

/-! ## Scanning token by token -/

/-- No character of a run starts an occurrence when a word character stands before the run. -/
theorem scanFrom_inside (literal : List Char) (guard? : Option (List Char)) (text : List Char)
    {run before : List Char} (hrun : ∀ c ∈ run, isWordChar c = true)
    (hbefore : atBoundary before = false) :
    scanFrom literal guard? before (run ++ text) =
      run.map .char ++ scanFrom literal guard? (run.reverse ++ before) text := by
  induction run generalizing before with
  | nil => simp
  | cons c run ih =>
      have hc : atBoundary (c :: before) = false := by simpa [atBoundary] using hrun c (by simp)
      rw [List.cons_append, scanFrom, hbefore, Bool.false_and, if_neg Bool.false_ne_true,
        ih (fun x hx ↦ hrun x (List.mem_cons_of_mem c hx)) hc]
      simp

theorem Token.count_marks (literal : List Char) (token : Token) :
    (token.marks literal).count (.hit false) = if token.startsWith literal then 1 else 0 := by
  have hchars (text : List Char) : (text.map Mark.char).count (.hit false) = 0 :=
    List.count_eq_zero.mpr (by simp)
  cases token with
  | other c => rfl
  | word run =>
      by_cases hstart : literal.isPrefixOf run = true
      · rw [Token.marks, Token.startsWith, if_pos hstart, if_pos hstart, List.count_cons_self,
          hchars]
      · rw [Token.marks, Token.startsWith, if_neg hstart, if_neg hstart, hchars]

/-- What is searched for inside words: a literal of word characters, and a guard that ends with one.
-/
structure WordPattern (literal : List Char) (guard? : Option (List Char)) : Prop where
  nonempty : literal ≠ []
  inside : ∀ c ∈ literal, isWordChar c = true
  guard : ∀ guard, guard? = some guard → startsInWord guard.reverse = true

/-- Where a run stops, a literal of word characters does not reach over its end. -/
theorem isPrefixOf_append {literal text : List Char} (run : List Char)
    (hliteral : ∀ c ∈ literal, isWordChar c = true) (stops : startsInWord text = false) :
    literal.isPrefixOf (run ++ text) = literal.isPrefixOf run := by
  induction literal generalizing run with
  | nil => simp
  | cons c literal ih =>
      cases run with
      | nil =>
          cases text with
          | nil => rfl
          | cons d text =>
              have hc : isWordChar c = true := hliteral c (by simp)
              have hd : isWordChar d = false := stops
              have hcd : c ≠ d := by rintro rfl; simp [hc] at hd
              simp [List.isPrefixOf, hcd]
      | cons d run =>
          simp only [List.cons_append, List.isPrefixOf]
          rw [ih run fun x hx ↦ hliteral x (List.mem_cons_of_mem c hx)]

namespace WordPattern

variable {literal : List Char} {guard? : Option (List Char)}

theorem isPrefixOf_cons (pattern : WordPattern literal guard?) {c : Char} {text : List Char}
    (outside : isWordChar c = false) : literal.isPrefixOf (c :: text) = false := by
  obtain ⟨l, literal, rfl⟩ := List.exists_cons_of_ne_nil pattern.nonempty
  have hl : isWordChar l = true := pattern.inside l (by simp)
  have hlc : l ≠ c := by rintro rfl; simp [hl] at outside
  simp [List.isPrefixOf, hlc]

theorem endsWithGuard_eq_false (pattern : WordPattern literal guard?) {before : List Char}
    (hbefore : atBoundary before = true) : endsWithGuard guard? before = false := by
  cases guard? with
  | none => rfl
  | some guard =>
      have hlast := pattern.guard guard rfl
      simp only [endsWithGuard]
      cases hg : guard.reverse with
      | nil => simp [hg, startsInWord] at hlast
      | cons g rest =>
          cases before with
          | nil => rfl
          | cons b before =>
              have hg' : isWordChar g = true := by simpa [hg, startsInWord] using hlast
              have hb : isWordChar b = false := by simpa [atBoundary] using hbefore
              have hgb : g ≠ b := by rintro rfl; simp [hg'] at hb
              simp [List.isPrefixOf, hgb]

/-- One run at a boundary: it is marked if and only if it starts with the literal. -/
theorem scanFrom_word (pattern : WordPattern literal guard?) {run text before : List Char}
    (nonempty : run ≠ []) (inside : ∀ c ∈ run, isWordChar c = true)
    (stops : startsInWord text = false) (hbefore : atBoundary before = true) :
    scanFrom literal guard? before (run ++ text) =
      (Token.word run).marks literal ++ scanFrom literal guard? (run.reverse ++ before) text := by
  obtain ⟨c, run, rfl⟩ := List.exists_cons_of_ne_nil nonempty
  obtain ⟨l, literal, rfl⟩ := List.exists_cons_of_ne_nil pattern.nonempty
  have hstart : (l :: literal).isPrefixOf (c :: (run ++ text)) =
      (l :: literal).isPrefixOf (c :: run) := isPrefixOf_append (c :: run) pattern.inside stops
  rw [List.cons_append, scanFrom, hbefore, Bool.true_and, hstart, Token.marks,
    pattern.endsWithGuard_eq_false hbefore]
  split
  · next h =>
    obtain ⟨rest, hrest⟩ := List.isPrefixOf_iff_prefix.mp h
    obtain ⟨rfl, rfl⟩ : l = c ∧ literal ++ rest = run := by simpa using hrest
    -- the scan goes on behind the literal, in the middle of the run
    have hinside : ∀ x ∈ rest, isWordChar x = true := fun x hx ↦ inside x (by simp [hx])
    have hmiddle : atBoundary ((l :: literal).reverse ++ before) = false := by
      cases hr : (l :: literal).reverse with
      | nil => simp at hr
      | cons x xs =>
          have hx : x ∈ l :: literal := by rw [← List.mem_reverse, hr]; simp
          simpa [atBoundary] using pattern.inside x hx
    have hdrop : (literal ++ rest ++ text).drop ((l :: literal).length - 1) = rest ++ text := by
      simp
    rw [hdrop, scanFrom_inside _ _ text hinside hmiddle]
    simp
  · next h =>
    have hc : atBoundary (c :: before) = false := by simpa [atBoundary] using inside c (by simp)
    rw [scanFrom_inside _ _ text (fun x hx ↦ inside x (List.mem_cons_of_mem c hx)) hc]
    simp

theorem scanFrom_eq (pattern : WordPattern literal guard?) {text before : List Char}
    {ts : List Token} (h : WordSplit text ts)
    (hbefore : atBoundary before = true ∨ startsInWord text = false) :
    scanFrom literal guard? before text = ts.flatMap (Token.marks literal) := by
  induction h generalizing before with
  | nil => simp [scanFrom]
  | @other c text ts outside later ih =>
      rw [scanFrom, pattern.isPrefixOf_cons outside, Bool.and_false, if_neg Bool.false_ne_true,
        ih (Or.inl (by simp [atBoundary, outside]))]
      rfl
  | @word run text ts nonempty inside stops later ih =>
      have hboundary : atBoundary before = true := by
        rcases hbefore with hbefore | hstart
        · exact hbefore
        · obtain ⟨c, run, rfl⟩ := List.exists_cons_of_ne_nil nonempty
          have hc : isWordChar c = false := hstart
          simp [inside c (by simp)] at hc
      rw [pattern.scanFrom_word nonempty inside stops hboundary, ih (Or.inr stops),
        List.flatMap_cons]

theorem scan_eq (pattern : WordPattern literal guard?) {text : List Char} {ts : List Token}
    (h : WordSplit text ts) : scan literal guard? text = ts.flatMap (Token.marks literal) :=
  pattern.scanFrom_eq h (Or.inl rfl)

theorem count_scan (pattern : WordPattern literal guard?) {text : List Char} {ts : List Token}
    (h : WordSplit text ts) :
    (scan literal guard? text).count (.hit false) = ts.countP (Token.startsWith literal) := by
  rw [pattern.scan_eq h]
  clear h
  induction ts with
  | nil => rfl
  | cons token ts ih =>
      rw [List.flatMap_cons, List.count_append, Token.count_marks, ih, List.countP_cons,
        Nat.add_comm]

end WordPattern

/-! ## Rules on tokens -/

namespace RenameRule

/-- The rule puts `added` in front of the words that start with its literal. -/
structure Prepends (rule : RenameRule) (added : List Char) : Prop where
  pattern : WordPattern rule.literal rule.guard?
  replacement : rule.replacement = added ++ rule.literal
  inside : ∀ c ∈ added, isWordChar c = true

variable {rule : RenameRule} {added : List Char}

theorem flatMap_target_map_char (rule : RenameRule) (text : List Char) :
    (text.map Mark.char).flatMap rule.target = text := by
  induction text with
  | nil => rfl
  | cons c text ih => simp [target, ih]

theorem Prepends.flatMap_target (h : rule.Prepends added) (token : Token) :
    (token.marks rule.literal).flatMap rule.target =
      (token.extend rule.literal added).chars := by
  cases token with
  | other c => rfl
  | word run =>
      simp only [Token.marks, Token.extend, Token.chars]
      split
      · next hstart =>
        obtain ⟨rest, rfl⟩ := List.isPrefixOf_iff_prefix.mp hstart
        simp [flatMap_target_map_char, target, h.replacement]
      · exact flatMap_target_map_char rule run

theorem Prepends.rename_eq (h : rule.Prepends added) {text : List Char} {ts : List Token}
    (hsplit : WordSplit text ts) :
    rule.rename text = (ts.map (Token.extend rule.literal added)).flatMap Token.chars := by
  rw [rename, marks, h.pattern.scan_eq hsplit, List.flatMap_assoc, List.flatMap_map]
  simp only [h.flatMap_target]

theorem count_eq (pattern : WordPattern rule.literal rule.guard?) {text : List Char}
    {ts : List Token} (hsplit : WordSplit text ts) :
    rule.count text = ts.countP (Token.startsWith rule.literal) :=
  pattern.count_scan hsplit

/-- No word that the rule changes starts with `literal`, neither before nor after the change. -/
structure Spares (rule : RenameRule) (literal : List Char) : Prop where
  before : ∀ rest, literal.isPrefixOf (rule.literal ++ rest) = false
  after : ∀ rest, literal.isPrefixOf (rule.replacement ++ rest) = false

theorem Prepends.startsWith_extend {literal : List Char} (h : rule.Prepends added)
    (spares : rule.Spares literal) (token : Token) :
    (token.extend rule.literal added).startsWith literal = token.startsWith literal := by
  cases token with
  | other c => rfl
  | word run =>
      simp only [Token.extend, Token.startsWith]
      split
      · next hstart =>
        obtain ⟨rest, rfl⟩ := List.isPrefixOf_iff_prefix.mp hstart
        rw [← List.append_assoc, ← h.replacement, spares.before, spares.after]
      · rfl

end RenameRule
end SymbolRename
