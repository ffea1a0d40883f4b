/-
# Cutting what was put together

A text that is put together from parts without blanks or line ends comes apart into the same
parts.  `pieces` is the cutting that the standard library has as `List.splitOnP`.

* `pieces_eq_splitOnP`: the two are one;
* `pieces_append`, `length_pieces`: the pieces on both sides of a cut, and how many there are;
* `words_eq_singleton`, `words_append_cons`: a text of one word, and a word in front of a text;
* `words_append`, `words_respaced`: the words on both sides of a blank, however wide the gap is;
* `pieces_joinWith`, `splitAt_joinWith`, `joinWith_splitAt`: joining and cutting undo each other;
* `lines_joinWith`, `lines_joinWith_of_getLast?`: lines that were joined, the last one ended or not;
* `flatMap_lines`: whoever passes over empty lines need not care which characters end a line;
* `append_of_opens`, `append_of_closes`: texts that meet at a cut;
* `mapPieces`, `words_mapPieces`: a text with its pieces or its words replaced.
-/
import MinionComputer.Text.Piece

namespace MinionComputer
namespace Text

variable {p : Char → Bool}

/-! ## 1. Pieces -/

theorem pieces_eq_splitOnP (p : Char → Bool) : ∀ cs : List Char, pieces p cs = cs.splitOnP p
  | [] => rfl
  | c :: r => by
    rw [pieces, List.splitOnP_cons_eq_if_modifyHead, pieces_eq_splitOnP p r]
    split
    · rfl
    · cases hr : r.splitOnP p with
      | nil => exact absurd hr (List.splitOnP_ne_nil p r)
      | cons w ws => rfl

/-- A text without a cut is one piece. -/
theorem pieces_eq_singleton {cs : List Char} (h : ∀ c ∈ cs, p c = false) :
    pieces p cs = [cs] := by
  rw [pieces_eq_splitOnP, List.splitOnP_eq_singleton h]

/-- What stands in front of the first cut is the first piece. -/
theorem pieces_append_cons {w r : List Char} {c : Char} (hw : ∀ x ∈ w, p x = false)
    (hc : p c = true) : pieces p (w ++ c :: r) = w :: pieces p r := by
  rw [pieces_eq_splitOnP, pieces_eq_splitOnP, List.splitOnP_append_cons_of_forall_mem hw c hc]

/-- On both sides of a cut the text is cut as it is alone. -/
theorem pieces_append {c : Char} (hc : p c = true) (l r : List Char) :
    pieces p (l ++ c :: r) = pieces p l ++ pieces p r := by
  rw [pieces_eq_splitOnP, pieces_eq_splitOnP, pieces_eq_splitOnP, List.splitOnP_append_cons _ _ hc]

/-- A piece holds characters of the text, in their order. -/
theorem sublist_of_mem_pieces : ∀ {cs l : List Char}, l ∈ pieces p cs → l.Sublist cs
  | [], _, h => (List.mem_singleton.mp h) ▸ List.Sublist.refl []
  | c :: r, l, h => by
    rw [pieces] at h
    split at h
    · rcases List.mem_cons.mp h with rfl | h
      · exact List.nil_sublist _
      · exact (sublist_of_mem_pieces h).cons c
    · cases hr : pieces p r with
      | nil => exact absurd hr (pieces_ne_nil p r)
      | cons w ws =>
        have hpieces : ∀ l ∈ w :: ws, l.Sublist r := fun l hl => sublist_of_mem_pieces (hr ▸ hl)
        rw [hr] at h
        rcases List.mem_cons.mp h with rfl | h
        · exact (hpieces w List.mem_cons_self).cons_cons c
        · exact (hpieces l (List.mem_cons_of_mem w h)).cons c

/-- There is no cut in a piece. -/
theorem not_cut_of_mem_pieces : ∀ {cs l : List Char}, l ∈ pieces p cs → ∀ c ∈ l, p c = false
  | [], _, h => by simp [List.mem_singleton.mp h]
  | c :: r, l, h => by
    rw [pieces] at h
    split at h
    · rcases List.mem_cons.mp h with rfl | h
      · simp
      · exact not_cut_of_mem_pieces h
    · next hc =>
      cases hr : pieces p r with
      | nil => exact absurd hr (pieces_ne_nil p r)
      | cons w ws =>
        have hpieces : ∀ l ∈ w :: ws, ∀ c ∈ l, p c = false := fun l hl =>
          not_cut_of_mem_pieces (hr ▸ hl)
        rw [hr] at h
        rcases List.mem_cons.mp h with rfl | h
        · exact List.forall_mem_cons.mpr ⟨by simpa using hc, hpieces w List.mem_cons_self⟩
        · exact hpieces l (List.mem_cons_of_mem w h)

/-- There is one piece more than there are cuts. -/
theorem length_pieces (p : Char → Bool) : ∀ cs : List Char,
    (pieces p cs).length = cs.countP p + 1
  | [] => rfl
  | c :: r => by
    have ih := length_pieces p r
    rw [pieces]
    split
    · next hc => rw [List.length_cons, ih, List.countP_cons_of_pos hc]
    · next hc =>
      rw [List.countP_cons_of_neg hc, ← ih]
      cases hr : pieces p r with
      | nil => exact absurd hr (pieces_ne_nil p r)
      | cons w ws => rfl

/-! ## 2. Words -/

/-- A text without blanks is one word. -/
theorem words_eq_singleton {w : List Char} (h : ∀ c ∈ w, isBlank c = false) (hne : w ≠ []) :
    words w = [w] := by
  simp [words, pieces_eq_singleton h, hne]

/-- A text that starts with a word and a blank. -/
theorem words_append_cons {w r : List Char} {c : Char} (h : ∀ x ∈ w, isBlank x = false)
    (hne : w ≠ []) (hc : isBlank c = true) : words (w ++ c :: r) = w :: words r := by
  simp [words, pieces_append_cons h hc, hne]

/-- On both sides of a blank the words are those of each side alone. -/
theorem words_append {c : Char} (hc : isBlank c = true) (l r : List Char) :
    words (l ++ c :: r) = words l ++ words r := by
  rw [words, pieces_append hc, List.filter_append]
  rfl

/-- Blanks in front of a text add no word. -/
theorem words_blanks_append : ∀ {gap : List Char} (r : List Char),
    (∀ c ∈ gap, isBlank c = true) → words (gap ++ r) = words r
  | [], _, _ => rfl
  | c :: gap, r, h => by
    rw [List.forall_mem_cons] at h
    have hfirst : words (c :: (gap ++ r)) = words (gap ++ r) := words_append h.1 [] (gap ++ r)
    rw [List.cons_append, hfirst, words_blanks_append r h.2]

/-- **A gap between words may be as wide as it likes.** -/
theorem words_respaced {gap : List Char} (hne : gap ≠ []) (h : ∀ c ∈ gap, isBlank c = true)
    (l r : List Char) : words (l ++ (gap ++ r)) = words l ++ words r := by
  obtain ⟨c, rest, rfl⟩ := List.exists_cons_of_ne_nil hne
  rw [List.forall_mem_cons] at h
  rw [List.cons_append, words_append h.1, words_blanks_append r h.2]

/-- A text of blanks has no word. -/
theorem words_blanks {gap : List Char} (h : ∀ c ∈ gap, isBlank c = true) : words gap = [] := by
  rw [← List.append_nil gap, words_blanks_append [] h]
  rfl

/-! ## 3. Lines -/

/-- Every line end separates words as well. -/
theorem isBlank_of_isLineEnd {c : Char} (h : isLineEnd c = true) : isBlank c = true := by
  simp only [isLineEnd, isBlank, Bool.or_eq_true, Bool.and_eq_true, decide_eq_true_eq,
    beq_iff_eq] at h ⊢
  omega

/-- Without carriage returns the line ends are those they were. -/
theorem unifyLineEnds_of_not_mem : ∀ {cs : List Char}, '\r' ∉ cs → unifyLineEnds cs = cs
  | [], _ => rfl
  | c :: r, h => by
    have hreturn : (c == '\r') = false := by
      rw [beq_eq_false_iff_ne]
      rintro rfl
      exact h List.mem_cons_self
    have hrest : unifyFrom false r = r :=
      unifyLineEnds_of_not_mem fun hr => h (List.mem_cons_of_mem c hr)
    simp [unifyLineEnds, unifyFrom, hreturn, hrest]

/-- Joining the lines and ending the last is ending every line. -/
theorem joinWith_append_singleton (c : Char) : ∀ {ls : List (List Char)}, ls ≠ [] →
    joinWith c ls ++ [c] = ls.flatMap (· ++ [c])
  | [l], _ => by simp [joinWith]
  | l :: l' :: ls, _ => by
    have ih := joinWith_append_singleton c (List.cons_ne_nil l' ls)
    rw [List.flatMap_cons, ← ih]
    simp [joinWith]

/-- Lines that were ended come apart again, with an empty piece behind the last end. -/
theorem pieces_flatMap {x : Char} (hx : p x = true) : ∀ {ls : List (List Char)},
    (∀ l ∈ ls, ∀ c ∈ l, p c = false) → pieces p (ls.flatMap (· ++ [x])) = ls ++ [[]]
  | [], _ => rfl
  | l :: ls, h => by
    rw [List.forall_mem_cons] at h
    have hcut : pieces p (l ++ x :: ls.flatMap (· ++ [x])) =
        l :: pieces p (ls.flatMap (· ++ [x])) := pieces_append_cons h.1 hx
    rw [List.flatMap_cons, List.append_assoc, List.singleton_append, hcut, pieces_flatMap hx h.2,
      List.cons_append]

/-- Texts that were joined are cut as each of them is alone. -/
theorem pieces_joinWith {x : Char} (hx : p x = true) : ∀ {ls : List (List Char)}, ls ≠ [] →
    pieces p (joinWith x ls) = ls.flatMap (pieces p)
  | [l], _ => by simp [joinWith]
  | l :: l' :: ls, _ => by
    change pieces p (l ++ x :: joinWith x (l' :: ls)) = _
    rw [pieces_append hx, pieces_joinWith hx (List.cons_ne_nil l' ls)]
    rfl

/-- Texts without a cut are not cut. -/
theorem flatMap_pieces_of_plain {ls : List (List Char)} (h : ∀ l ∈ ls, ∀ c ∈ l, p c = false) :
    ls.flatMap (pieces p) = ls := by
  induction ls with
  | nil => rfl
  | cons l ls ih =>
    rw [List.forall_mem_cons] at h
    rw [List.flatMap_cons, pieces_eq_singleton h.1, ih h.2, List.singleton_append]

/-- Cutting undoes joining, where the texts hold no cut of their own. -/
theorem splitAt_joinWith {x : Char} {ls : List (List Char)} (hne : ls ≠ [])
    (h : ∀ l ∈ ls, x ∉ l) : splitAt x (joinWith x ls) = ls := by
  have hplain : ∀ l ∈ ls, ∀ c ∈ l, (c == x) = false := by
    intro l hl c hc
    rw [beq_eq_false_iff_ne]
    rintro rfl
    exact h l hl hc
  have hjoined := pieces_joinWith (p := (· == x)) (beq_self_eq_true x) hne
  rw [splitAt, hjoined, flatMap_pieces_of_plain hplain]

/-- A text that was joined has the characters of the texts, and the one between. -/
theorem mem_joinWith {x c : Char} : ∀ {ls : List (List Char)}, c ∈ joinWith x ls →
    c = x ∨ ∃ l ∈ ls, c ∈ l
  | [l], h => .inr ⟨l, List.mem_cons_self, h⟩
  | l :: l' :: ls, h => by
    have h' : c ∈ l ++ x :: joinWith x (l' :: ls) := h
    rcases List.mem_append.mp h' with h | h
    · exact .inr ⟨l, List.mem_cons_self, h⟩
    · rcases List.mem_cons.mp h with h | h
      · exact .inl h
      · rcases mem_joinWith h with h | ⟨k, hk, hc⟩
        · exact .inl h
        · exact .inr ⟨k, List.mem_cons_of_mem l hk, hc⟩

/-- Texts that were joined end in the last of them. -/
theorem suffix_joinWith (x : Char) : ∀ {ls : List (List Char)} {l : List Char},
    l ∈ ls.getLast? → l <:+ joinWith x ls
  | [_], _, h => (Option.mem_some.mp h) ▸ List.suffix_rfl
  | w :: w' :: ls, l, h => by
    have hrest : l <:+ joinWith x (w' :: ls) := suffix_joinWith x (by rwa [List.getLast?_cons_cons] at h)
    exact hrest.trans ((List.suffix_cons x _).trans (List.suffix_append w _))

/-- Joining undoes cutting. -/
theorem joinWith_splitAt (x : Char) : ∀ cs : List Char, joinWith x (splitAt x cs) = cs
  | [] => rfl
  | c :: r => by
    have ih : joinWith x (pieces (· == x) r) = r := joinWith_splitAt x r
    rw [splitAt, pieces]
    cases hr : pieces (· == x) r with
    | nil => exact absurd hr (pieces_ne_nil _ r)
    | cons w ws =>
      rw [hr] at ih
      split
      · next hc =>
        have hx : c = x := by simpa using hc
        rw [hx, ← ih]
        rfl
      · rw [← ih]
        cases ws <;> rfl

theorem dropEmptyLast_append (ls : List (List Char)) : dropEmptyLast (ls ++ [[]]) = ls := by
  simp [dropEmptyLast]

/-- Lines that were joined and ended hold no carriage return. -/
theorem return_not_mem_joinWith {ls : List (List Char)}
    (h : ∀ l ∈ ls, ∀ c ∈ l, isLineEnd c = false) : '\r' ∉ joinWith '\n' ls ++ ['\n'] := by
  by_cases hne : ls = []
  · subst hne
    decide
  · rw [joinWith_append_singleton '\n' hne]
    intro hmem
    obtain ⟨l, hl, hc⟩ := List.mem_flatMap.mp hmem
    rcases List.mem_append.mp hc with hc | hc
    · exact Bool.noConfusion (h l hl '\r' hc)
    · exact absurd hc (by decide)

/-- **Lines that were joined and ended are the lines of the text.** -/
theorem lines_joinWith {ls : List (List Char)} (hne : ls ≠ [])
    (h : ∀ l ∈ ls, ∀ c ∈ l, isLineEnd c = false) : lines (joinWith '\n' ls ++ ['\n']) = ls := by
  rw [lines, unifyLineEnds_of_not_mem (return_not_mem_joinWith h),
    joinWith_append_singleton '\n' hne, pieces_flatMap rfl h, dropEmptyLast_append]

/-- Joined lines of which the last is not empty need no end behind it. -/
theorem lines_joinWith_of_getLast? {ls : List (List Char)} (hlast : ls.getLast? ≠ some [])
    (h : ∀ l ∈ ls, ∀ c ∈ l, isLineEnd c = false) : lines (joinWith '\n' ls) = ls := by
  have hreturn : '\r' ∉ joinWith '\n' ls := fun hr =>
    return_not_mem_joinWith h (List.mem_append_left _ hr)
  rw [lines, unifyLineEnds_of_not_mem hreturn]
  by_cases hne : ls = []
  · subst hne
    rfl
  · have hended : pieces isLineEnd (joinWith '\n' ls ++ '\n' :: []) = ls ++ [[]] := by
      rw [joinWith_append_singleton '\n' hne, pieces_flatMap rfl h]
    have hpieces : pieces isLineEnd (joinWith '\n' ls) = ls := by
      rw [pieces_append rfl] at hended
      exact List.append_cancel_right hended
    rw [hpieces, dropEmptyLast, if_neg hlast]

variable {β : Type} {f : List Char → List β}

theorem flatMap_dropEmptyLast (hf : f [] = []) (ls : List (List Char)) :
    (dropEmptyLast ls).flatMap f = ls.flatMap f := by
  unfold dropEmptyLast
  split
  · next hlast =>
    obtain ⟨init, rfl⟩ := List.getLast?_eq_some_iff.mp hlast
    rw [List.dropLast_concat, List.flatMap_append, List.flatMap_singleton, hf, List.append_nil]
  · rfl

/-- A carriage return and a line feed have an empty piece between them, and nothing else comes of
writing line feeds for the line ends of other systems. -/
theorem flatMap_pieces_unifyFrom (hf : f [] = []) : ∀ (cs : List Char) (afterReturn : Bool)
    (w : List Char), (afterReturn = true → w = []) → (∀ c ∈ w, isLineEnd c = false) →
      (pieces isLineEnd (w ++ unifyFrom afterReturn cs)).flatMap f =
        (pieces isLineEnd (w ++ cs)).flatMap f
  | [], _, _, _, _ => rfl
  | c :: r, afterReturn, w, hafter, hw => by
    have hnone : ∀ c ∈ ([] : List Char), isLineEnd c = false := by simp
    rw [unifyFrom]
    split
    · next hreturn =>
      have hc : isLineEnd c = true := by
        rw [eq_of_beq hreturn]
        rfl
      have ih := flatMap_pieces_unifyFrom hf r true [] (fun _ => rfl) hnone
      rw [List.nil_append, List.nil_append] at ih
      rw [pieces_append_cons hw rfl, pieces_append_cons hw hc, List.flatMap_cons, ih,
        List.flatMap_cons]
    · have ih := flatMap_pieces_unifyFrom hf r false
      split
      · next hpair =>
        rw [Bool.and_eq_true] at hpair
        obtain rfl := hafter hpair.2
        have hc : isLineEnd c = true := by
          rw [eq_of_beq hpair.1]
          rfl
        have hcut : pieces isLineEnd (c :: r) = [] :: pieces isLineEnd r :=
          pieces_append_cons hw hc
        rw [List.nil_append, List.nil_append, hcut, List.flatMap_cons, hf, List.nil_append]
        exact ih [] (fun _ => rfl) hnone
      · cases hc : isLineEnd c with
        | true =>
          have hrest := ih [] (fun _ => rfl) hnone
          rw [List.nil_append, List.nil_append] at hrest
          rw [pieces_append_cons hw hc, pieces_append_cons hw hc, List.flatMap_cons, hrest,
            List.flatMap_cons]
        | false =>
          rw [List.append_cons w c r, List.append_cons w c (unifyFrom false r)]
          refine ih (w ++ [c]) (fun h => Bool.noConfusion h) ?_
          rw [List.forall_mem_append]
          exact ⟨hw, by simpa using hc⟩

/-- **Whoever passes over empty lines may cut a text at every line end by itself.** -/
theorem flatMap_lines (hf : f [] = []) (cs : List Char) :
    (lines cs).flatMap f = (pieces isLineEnd cs).flatMap f := by
  rw [lines, flatMap_dropEmptyLast hf]
  exact flatMap_pieces_unifyFrom hf cs false [] (fun _ => rfl) (by simp)

/-! ## 5. Texts that meet at a cut -/

/-- A piece starts behind the text: there is nothing in front, or a cut. -/
def Opens (p : Char → Bool) (l : List Char) : Prop := ∀ c ∈ l.getLast?, p c = true

/-- A piece ends in front of the text: there is nothing behind, or a cut. -/
def Closes (p : Char → Bool) (r : List Char) : Prop := ∀ c ∈ r.head?, p c = true

instance (p : Char → Bool) (l : List Char) : Decidable (Opens p l) :=
  decidable_of_iff (l.getLast?.all p = true) (by cases h : l.getLast? <;> simp [Opens, h])

instance (p : Char → Bool) (r : List Char) : Decidable (Closes p r) :=
  decidable_of_iff (r.head?.all p = true) (by cases r <;> simp [Closes])

variable {F : List Char → List β} {l r : List Char}

/-- What falls apart at every cut falls apart behind a text that ends in one. -/
theorem append_of_opens (hnil : F [] = [])
    (hcut : ∀ c, p c = true → ∀ l r, F (l ++ c :: r) = F l ++ F r) (hl : Opens p l) :
    F (l ++ r) = F l ++ F r := by
  rcases List.eq_nil_or_concat l with rfl | ⟨l, c, rfl⟩
  · rw [hnil]
    rfl
  · rw [List.concat_eq_append] at hl ⊢
    have hc : p c = true := hl c (by simp)
    rw [List.append_assoc, List.singleton_append, hcut c hc, hcut c hc, hnil, List.append_nil]

/-- ...and in front of one that starts with a cut. -/
theorem append_of_closes (hnil : F [] = [])
    (hcut : ∀ c, p c = true → ∀ l r, F (l ++ c :: r) = F l ++ F r) (hr : Closes p r) :
    F (l ++ r) = F l ++ F r := by
  cases r with
  | nil => rw [hnil, List.append_nil, List.append_nil]
  | cons c r =>
    have hc : p c = true := hr c rfl
    have hrest : F (c :: r) = F [] ++ F r := hcut c hc [] r
    rw [hcut c hc, hrest, hnil, List.nil_append]

/-! ## 6. Pieces that are replaced -/

variable {g : List Char → List Char}

/-- The text with each piece replaced, where the piece that is being read starts with `w`. -/
def mapPiecesFrom (p : Char → Bool) (g : List Char → List Char) (w : List Char) :
    List Char → List Char
  | [] => g w
  | c :: r => if p c then g w ++ c :: mapPiecesFrom p g [] r else mapPiecesFrom p g (w ++ [c]) r

/-- The text with each of its pieces replaced and the cuts between them kept. -/
def mapPieces (p : Char → Bool) (g : List Char → List Char) (cs : List Char) : List Char :=
  mapPiecesFrom p g [] cs

theorem pieces_mapPiecesFrom : ∀ {cs w : List Char}, (∀ c ∈ w, p c = false) →
    (∀ v ∈ pieces p (w ++ cs), ∀ c ∈ g v, p c = false) →
      pieces p (mapPiecesFrom p g w cs) = (pieces p (w ++ cs)).map g
  | [], w, hw, hg => by
    rw [List.append_nil, pieces_eq_singleton hw] at hg ⊢
    exact pieces_eq_singleton (hg w (List.mem_singleton_self w))
  | c :: r, w, hw, hg => by
    rw [mapPiecesFrom]
    split
    · next hc =>
      rw [pieces_append_cons hw hc, List.forall_mem_cons] at hg
      have ih : pieces p (mapPiecesFrom p g [] r) = (pieces p r).map g :=
        pieces_mapPiecesFrom (by simp) hg.2
      rw [pieces_append_cons hg.1 hc, ih, pieces_append_cons hw hc, List.map_cons]
    · next hc =>
      rw [List.append_cons w c r] at hg ⊢
      refine pieces_mapPiecesFrom (List.forall_mem_append.mpr ⟨hw, ?_⟩) hg
      simpa using hc

/-- **The pieces of a text with its pieces replaced are what they were replaced by**, unless that
holds cuts of its own. -/
theorem pieces_mapPieces {cs : List Char} (hg : ∀ v ∈ pieces p cs, ∀ c ∈ g v, p c = false) :
    pieces p (mapPieces p g cs) = (pieces p cs).map g :=
  pieces_mapPiecesFrom (by simp) hg

theorem mem_mapPiecesFrom {c : Char} : ∀ {cs w : List Char}, (∀ d ∈ w, p d = false) →
    c ∈ mapPiecesFrom p g w cs →
      (c ∈ cs ∧ p c = true) ∨ ∃ v ∈ pieces p (w ++ cs), c ∈ g v
  | [], w, hw, h => by
    refine .inr ⟨w, ?_, h⟩
    rw [List.append_nil, pieces_eq_singleton hw]
    exact List.mem_singleton_self w
  | d :: r, w, hw, h => by
    rw [mapPiecesFrom] at h
    split at h
    · next hd =>
      rw [pieces_append_cons hw hd]
      rcases List.mem_append.mp h with h | h
      · exact .inr ⟨w, List.mem_cons_self, h⟩
      · rcases List.mem_cons.mp h with rfl | h
        · exact .inl ⟨List.mem_cons_self, hd⟩
        · rcases mem_mapPiecesFrom (by simp) h with ⟨hc, hcut⟩ | ⟨v, hv, hc⟩
          · exact .inl ⟨List.mem_cons_of_mem d hc, hcut⟩
          · exact .inr ⟨v, List.mem_cons_of_mem w hv, hc⟩
    · next hd =>
      have hw' : ∀ x ∈ w ++ [d], p x = false :=
        List.forall_mem_append.mpr ⟨hw, by simpa using hd⟩
      rw [List.append_cons w d r]
      rcases mem_mapPiecesFrom hw' h with ⟨hc, hcut⟩ | ⟨v, hv, hc⟩
      · exact .inl ⟨List.mem_cons_of_mem d hc, hcut⟩
      · exact .inr ⟨v, hv, hc⟩

/-- A character of a text with its pieces replaced is a cut of the text, or new. -/
theorem mem_mapPieces {cs : List Char} {c : Char} (h : c ∈ mapPieces p g cs) :
    (c ∈ cs ∧ p c = true) ∨ ∃ v ∈ pieces p cs, c ∈ g v :=
  mem_mapPiecesFrom (by simp) h

/-- A piece that is not empty is a word. -/
theorem eq_nil_or_mem_words {cs v : List Char} (hv : v ∈ pieces isBlank cs) :
    v = [] ∨ v ∈ words cs := by
  by_cases hv' : v = []
  · exact .inl hv'
  · exact .inr (List.mem_filter.mpr ⟨hv, by simpa using hv'⟩)

/-- The words of a text with its words replaced. -/
theorem words_mapPieces {cs : List Char} (hnil : g [] = [])
    (hg : ∀ w ∈ words cs, g w ≠ [] ∧ ∀ c ∈ g w, isBlank c = false) :
    words (mapPieces isBlank g cs) = (words cs).map g := by
  have hpieces : pieces isBlank (mapPieces isBlank g cs) = (pieces isBlank cs).map g := by
    refine pieces_mapPieces fun v hv => ?_
    rcases eq_nil_or_mem_words hv with rfl | hv
    · simp [hnil]
    · exact (hg v hv).2
  have hempty : ∀ v ∈ pieces isBlank cs, (g v).isEmpty = v.isEmpty := by
    intro v hv
    rcases eq_nil_or_mem_words hv with rfl | hmem
    · rw [hnil]
    · rw [Bool.eq_iff_iff, List.isEmpty_iff, List.isEmpty_iff]
      refine iff_of_false (hg v hmem).1 ?_
      simpa using (List.mem_filter.mp hmem).2
  rw [words, hpieces, List.filter_map, words]
  refine congrArg (List.map g) (List.filter_congr fun v hv => ?_)
  rw [Function.comp_apply, hempty v hv]

end Text
end MinionComputer
