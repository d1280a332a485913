import Mathlib.Data.List.Induction

/-!
# Command lines

A loop over the words of a command line knows options that take the next word as their value,
options that stand alone, and words that end it. What it accepts are the sequences of such options,
whatever words their values are, and it ends at the first word that is no option. An option that is
given again counts the last time.
-/

namespace NdnFwd.Options

/-- What a word asks of the loop. -/
inductive Reading (σ ε : Type*)
  | switch (turn : σ → σ)
  /-- The next word is its value. -/
  | value (store : String → σ → σ) (missing : ε)
  | stop (e : ε)

/-- An option of a command line, with its value if it takes one. -/
structure Item where
  word : String
  value : Option String
  deriving DecidableEq, Repr

/-- An option as it stands on the command line. -/
def Item.words (item : Item) : List String := item.word :: item.value.toList

/-- The options as words. -/
def words (items : List Item) : List String := items.flatMap Item.words

/-- The value given last under one of some names. -/
def lastValue (isName : String → Bool) (items : List Item) : Option String :=
  (items.filter fun item => isName item.word).getLast?.bind Item.value

section Scan

variable {σ ε : Type*} (read : String → Reading σ ε)

/-- The loop. -/
def scan : List String → σ → Except ε σ
  | [], s => .ok s
  | w :: ws, s =>
    match read w with
    | .stop e => .error e
    | .switch turn => scan ws (turn s)
    | .value store missing =>
      match ws with
      | [] => .error missing
      | v :: ws => scan ws (store v s)

/-- The word takes a value exactly if it has one. -/
def Fits (item : Item) : Prop :=
  match read item.word with
  | .switch _ => item.value = none
  | .value _ _ => item.value ≠ none
  | .stop _ => False

/-- What an option does. -/
def effect (s : σ) (item : Item) : σ :=
  match read item.word, item.value with
  | .switch turn, _ => turn s
  | .value store _, some v => store v s
  | _, _ => s

/-- The loop ends at a word, or for want of one. -/
inductive Stops : List String → ε → Prop
  | word {w : String} {ws : List String} {e : ε} (h : read w = .stop e) : Stops (w :: ws) e
  | missing {w : String} {store : String → σ → σ} {e : ε} (h : read w = .value store e) :
    Stops [w] e

end Scan

section Grammar

variable {σ ε : Type*} {read : String → Reading σ ε} {items : List Item} {ws : List String}
  {s t : σ} {e : ε}

private theorem scan_item {item : Item} (h : Fits read item) (ws : List String) (s : σ) :
    scan read (item.words ++ ws) s = scan read ws (effect read s item) := by
  obtain ⟨w, v⟩ := item
  cases hw : read w with
  | stop e => simp [Fits, hw] at h
  | switch turn =>
    obtain rfl : v = none := by simpa [Fits, hw] using h
    simp [Item.words, scan, effect, hw]
  | value store missing =>
    obtain ⟨x, rfl⟩ := Option.ne_none_iff_exists'.mp (by simpa [Fits, hw] using h : v ≠ none)
    simp [Item.words, scan, effect, hw]

/-- The loop takes up one option after the other. -/
theorem scan_words (h : ∀ item ∈ items, Fits read item) (ws : List String) (s : σ) :
    scan read (words items ++ ws) s = scan read ws (items.foldl (effect read) s) := by
  induction items generalizing s with
  | nil => rfl
  | cons item items ih =>
    have hitem := List.forall_mem_cons.mp h
    rw [words, List.flatMap_cons, List.append_assoc, scan_item hitem.1]
    exact ih hitem.2 _

/-- Every command line is a sequence of options, up to where the loop ends. -/
theorem exists_items (read : String → Reading σ ε) (ws : List String) :
    ∃ items rest, (∀ item ∈ items, Fits read item) ∧ ws = words items ++ rest ∧
      (rest = [] ∨ ∃ e, Stops read rest e) := by
  induction hn : ws.length using Nat.strongRecOn generalizing ws with
  | ind n ih =>
    have hcons : ∀ item : Item, Fits read item → ∀ ws', ws = item.words ++ ws' →
        ∃ items rest, (∀ item ∈ items, Fits read item) ∧ ws = words items ++ rest ∧
          (rest = [] ∨ ∃ e, Stops read rest e) := by
      rintro item hfit ws' rfl
      have hlt : ws'.length < n := by
        rw [← hn, List.length_append, Item.words, List.length_cons]
        omega
      obtain ⟨items, rest, hfits, rfl, hrest⟩ := ih _ hlt ws' rfl
      refine ⟨item :: items, rest, List.forall_mem_cons.mpr ⟨hfit, hfits⟩, ?_, hrest⟩
      rw [words, words, List.flatMap_cons, List.append_assoc]
    cases ws with
    | nil => exact ⟨[], [], by simp, rfl, Or.inl rfl⟩
    | cons w ws =>
      cases hw : read w with
      | stop e => exact ⟨[], w :: ws, by simp, rfl, Or.inr ⟨e, .word hw⟩⟩
      | switch turn => exact hcons ⟨w, none⟩ (by simp [Fits, hw]) ws rfl
      | value store missing =>
        cases ws with
        | nil => exact ⟨[], [w], by simp, rfl, Or.inr ⟨missing, .missing hw⟩⟩
        | cons v ws => exact hcons ⟨w, some v⟩ (by simp [Fits, hw]) ws rfl

private theorem scan_stops (h : Stops read ws e) (s : σ) : scan read ws s = .error e := by
  cases h with
  | word h => simp [scan, h]
  | missing h => simp [scan, h]

/-- What the loop accepts, and what it makes of it. -/
theorem scan_eq_ok_iff : scan read ws s = .ok t ↔
    ∃ items, (∀ item ∈ items, Fits read item) ∧ ws = words items ∧
      items.foldl (effect read) s = t := by
  constructor
  · intro h
    obtain ⟨items, rest, hfits, rfl, hrest⟩ := exists_items read ws
    rw [scan_words hfits] at h
    rcases hrest with rfl | ⟨e, hstops⟩
    · exact ⟨items, hfits, List.append_nil _, Except.ok.inj h⟩
    · rw [scan_stops hstops] at h
      cases h
  · rintro ⟨items, hfits, rfl, rfl⟩
    have hscan := scan_words hfits [] s
    rwa [List.append_nil] at hscan

/-- Where it ends otherwise. -/
theorem scan_eq_error_iff : scan read ws s = .error e ↔
    ∃ items rest, (∀ item ∈ items, Fits read item) ∧ ws = words items ++ rest ∧
      Stops read rest e := by
  constructor
  · intro h
    obtain ⟨items, rest, hfits, rfl, hrest⟩ := exists_items read ws
    rw [scan_words hfits] at h
    rcases hrest with rfl | ⟨e', hstops⟩
    · cases h
    · rw [scan_stops hstops] at h
      obtain rfl := Except.error.inj h
      exact ⟨items, rest, hfits, rfl, hstops⟩
  · rintro ⟨items, rest, hfits, rfl, hstops⟩
    rw [scan_words hfits, scan_stops hstops]

/-- A setting has the value that was given last under its names. -/
theorem foldl_setting (get : σ → Option String) {isName : String → Bool}
    (heffect : ∀ item s, Fits read item →
      get (effect read s item) = if isName item.word then item.value else get s)
    (h : ∀ item ∈ items, Fits read item) (hvalue : ∀ item ∈ items, isName item.word = true →
      item.value ≠ none) (s : σ) :
    get (items.foldl (effect read) s) = (lastValue isName items).or (get s) := by
  induction items using List.reverseRecOn with
  | nil => rfl
  | append_singleton items item ih =>
    have hitem := List.forall_mem_append.mp h
    have hfit : Fits read item := hitem.2 item (List.mem_singleton_self _)
    have hrest := ih hitem.1 fun i hi => hvalue i (List.mem_append_left _ hi)
    rw [List.foldl_append, List.foldl_cons, List.foldl_nil, heffect item _ hfit, lastValue,
      List.filter_append, List.filter_cons, List.filter_nil]
    by_cases hname : isName item.word = true
    · have hsome := hvalue item (List.mem_append_right _ (List.mem_singleton_self _)) hname
      obtain ⟨v, hv⟩ := Option.ne_none_iff_exists'.mp hsome
      rw [if_pos hname, if_pos hname, List.getLast?_concat, Option.bind_some, hv]
      rfl
    · rw [if_neg hname, if_neg hname, List.append_nil, hrest]
      rfl

end Grammar

end NdnFwd.Options
