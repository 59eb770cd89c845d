/-!
# Resemblance of texts

How much two texts resemble each other is told by the stretches that they share: the longest one,
and in the same way what they share to the left and to the right of it.
-/

namespace CellShader.Text

/-- The length of the longest beginning that two texts share. -/
def sharedLength : List Char → List Char → Nat
  | a :: as, b :: bs => if a = b then sharedLength as bs + 1 else 0
  | _, _ => 0

/-- A stretch that two texts share: where it begins in each, and its length. -/
structure SharedStretch where
  left : Nat
  right : Nat
  length : Nat
  deriving DecidableEq, Repr

/-- The longer one of two stretches, the first of them if they are equally long. -/
def SharedStretch.longer (a b : SharedStretch) : SharedStretch :=
  if a.length < b.length then b else a

/-- The longest stretch that two texts share, the first such one in `as`, and in `bs` for its place
there. -/
def longestShared (as bs : List Char) : SharedStretch :=
  ((List.range as.length).flatMap (fun i => (List.range bs.length).map (fun j =>
    (⟨i, j, sharedLength (as.drop i) (bs.drop j)⟩ : SharedStretch)))).foldl
      SharedStretch.longer ⟨0, 0, 0⟩

/-- How many characters lie in shared stretches, at most the given number of which are looked for
inside one another. -/
def sharedCountWithin : Nat → List Char → List Char → Nat
  | 0, _, _ => 0
  | depth + 1, as, bs =>
    let s := longestShared as bs
    if s.length = 0 then 0
    else
      s.length + sharedCountWithin depth (as.take s.left) (bs.take s.right) +
        sharedCountWithin depth (as.drop (s.left + s.length)) (bs.drop (s.right + s.length))

/-- How many characters of two texts lie in shared stretches. -/
def sharedCount (as bs : List Char) : Nat := sharedCountWithin as.length as bs

/-- A candidate with what it shares with a text and the length of both together. -/
structure Candidate where
  name : String
  shared : Nat
  total : Nat

namespace Candidate

/-- How a candidate compares with a text. -/
def ofTexts (text name : String) : Candidate :=
  ⟨name, sharedCount name.toList text.toList, name.length + text.length⟩

/-- Whether three fifths of the characters are shared. -/
def isClose (c : Candidate) : Bool := c.total * 3 ≤ c.shared * 10

/-- Whether three fifths of the characters of two texts can be shared, which is more than the
shorter one has if the other is much longer. -/
def canBeClose (text name : String) : Bool :=
  (name.length + text.length) * 3 ≤ min name.length text.length * 10

/-- Whether a candidate comes before another: it resembles more, or as much and is later in order.
-/
def isBefore (a b : Candidate) : Bool :=
  if a.shared * b.total = b.shared * a.total then b.name ≤ a.name
  else b.shared * a.total < a.shared * b.total

end Candidate

/-- Those of the candidates that resemble a text most, three at the most. -/
def closeMatches (text : String) (names : List String) : List String :=
  let near := names.filter (Candidate.canBeClose text)
  (((near.map (Candidate.ofTexts text)).filter Candidate.isClose).mergeSort
    Candidate.isBefore |>.take 3).map Candidate.name

end CellShader.Text
