/-!
# Similar words

How much two words have in common, and which words of a list someone may have meant who wrote another one.

Two words share their longest common block, and what the parts before it and behind it share. The parts are
shorter than the words, so the recursion ends.
-/

namespace OpenCrud.Text

/-! ## Common blocks -/

/-- The number of characters that two texts begin with in common. -/
def commonStart : List Char → List Char → Nat
  | x :: xs, y :: ys => if x = y then commonStart xs ys + 1 else 0
  | _, _ => 0

/-- Two texts begin with no more in common than the first one holds. -/
theorem commonStart_le : ∀ a b : List Char, commonStart a b ≤ a.length
  | [], _ => by simp [commonStart]
  | _ :: _, [] => by simp [commonStart]
  | x :: xs, y :: ys => by
    simp only [commonStart, List.length_cons]
    split
    · exact Nat.succ_le_succ (commonStart_le xs ys)
    · exact Nat.zero_le _

/-- A stretch of equal characters: where it starts in each of two texts, and how long it is. -/
structure Block where
  first : Nat
  second : Nat
  size : Nat
  deriving DecidableEq, Repr

/-- The block that starts at two places and goes on as far as the texts agree. -/
def Block.at (a b : List Char) (first second : Nat) : Block :=
  ⟨first, second, commonStart (a.drop first) (b.drop second)⟩

/-- Every block of two texts, by where it starts in the first text, then in the second. -/
def blocks (a b : List Char) : List Block :=
  (List.range a.length).flatMap fun first => (List.range b.length).map (Block.at a b first)

/-- The first of the largest blocks. -/
def largest? : List Block → Option Block
  | [] => none
  | block :: later =>
    match largest? later with
    | none => some block
    | some other => if block.size < other.size then some other else some block

/-- The first of the largest blocks is one of the blocks. -/
theorem mem_of_largest? {block : Block} : ∀ {l : List Block}, largest? l = some block → block ∈ l
  | [], h => by simp [largest?] at h
  | x :: xs, h => by
    rw [largest?] at h
    split at h
    · simp_all
    · rename_i other hother
      split at h
      · exact List.mem_cons_of_mem _ (mem_of_largest? (by rw [hother, h]))
      · simp_all

/-- The first of the longest blocks that two texts have in common. -/
def longestBlock? (a b : List Char) : Option Block := (largest? (blocks a b)).filter (0 < ·.size)

/-- A longest block is not empty and lies in the first text. -/
theorem bounds_of_longestBlock? {a b : List Char} {block : Block}
    (h : longestBlock? a b = some block) : 0 < block.size ∧ block.first + block.size ≤ a.length := by
  obtain ⟨h, positive⟩ := Option.filter_eq_some_iff.1 h
  refine ⟨by simpa using positive, ?_⟩
  have h := mem_of_largest? h
  simp only [blocks, List.mem_flatMap, List.mem_range, List.mem_map] at h
  obtain ⟨first, hfirst, second, _, rfl⟩ := h
  have := commonStart_le (a.drop first) (b.drop second)
  simp only [List.length_drop] at this
  simp only [Block.at]
  omega

/-! ## Similarity -/

/-- The number of characters that two texts share in common blocks, in order. -/
def sharedLength (a b : List Char) : Nat :=
  match _h : longestBlock? a b with
  | none => 0
  | some block =>
    sharedLength (a.take block.first) (b.take block.second) + block.size
      + sharedLength (a.drop (block.first + block.size)) (b.drop (block.second + block.size))
termination_by a.length
decreasing_by
  all_goals
    have := bounds_of_longestBlock? _h
    simp only [List.length_take, List.length_drop]
    omega

/-- How similar a candidate is to a word: of all characters of both, twice those that they share. -/
structure Similarity where
  candidate : String
  shared : Nat
  total : Nat

namespace Similarity

/-- The similarity of a candidate to a word. -/
def between (word candidate : String) : Similarity where
  candidate := candidate
  shared := 2 * sharedLength candidate.toList word.toList
  total := candidate.length + word.length

/-- Whether three fifths of all characters are shared. -/
def isClose (s : Similarity) : Bool := 3 * s.total ≤ 5 * s.shared

/-- Whether a candidate is long enough to come close to a word: it can share no more than it holds. -/
def isInReach (word candidate : String) : Bool :=
  3 * (candidate.length + word.length) ≤ 10 * candidate.length

/-- Whether one candidate is at least as good as another; of two as good as each other, the later in
alphabetical order. -/
def isBetter (s t : Similarity) : Bool :=
  t.shared * s.total < s.shared * t.total
    || t.shared * s.total = s.shared * t.total && t.candidate ≤ s.candidate

end Similarity

/-- The candidates that come close to a word: the best three, in alphabetical order. -/
def closeMatches (word : String) (candidates : List String) : List String :=
  let inReach := candidates.filter (Similarity.isInReach word)
  let close := (inReach.map (Similarity.between word)).filter Similarity.isClose
  let best := (close.mergeSort Similarity.isBetter).take 3
  (best.map Similarity.candidate).mergeSort fun s t => s ≤ t

end OpenCrud.Text
