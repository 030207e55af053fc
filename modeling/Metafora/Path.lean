import Mathlib.Data.List.Basic
import Mathlib.Data.List.Infix

/-! # Go's `strings` and `path` functions that build and split etcd keys

* `hasPrefix`, `hasSuffix`, `trim`, `split`, `contains`, `replace`: `strings.HasPrefix`,
  `strings.HasSuffix`, `strings.Trim`, `strings.Split` (on a one-character separator),
  `strings.Contains` and `strings.Replace` of the first occurrence, over the characters of a
  string.
* `pathClean`, `pathJoin`: `path.Clean` by the rules of its documentation (one slash between
  elements, no `.` element, each `..` removes the element before it, no `..` at the root, `.` for
  the empty result), and `path.Join`: the elements from the first non-empty one, joined by `/`,
  cleaned.
* `Segment`: a path element that `path.Clean` keeps: not empty, without `/`, and neither `.` nor
  `..`. `pathJoin_slashes` and `split_segments`: keys made of such elements come out of
  `path.Join` with one slash between elements, whatever slashes surround the first, and go back
  to their elements under `strings.Split`.
-/

namespace Metafora
set_option autoImplicit false

/-! ## `strings` -/

def hasPrefix (s pfx : String) : Bool := pfx.data.isPrefixOf s.data

def hasSuffix (s suffix : String) : Bool := suffix.data.isSuffixOf s.data

/-- `strings.Trim(s, cutset)`. -/
def trim (s : String) (cutset : List Char) : String :=
  ⟨((s.data.dropWhile (· ∈ cutset)).reverse.dropWhile (· ∈ cutset)).reverse⟩

/-- `strings.Split(s, sep)` for a one-character `sep`. -/
def split (s : String) (sep : Char) : List String := (s.data.splitOn sep).map String.mk

def contains (s substr : String) : Bool := decide (substr.data <:+: s.data)

/-- `strings.Replace(s, old, new, 1)` on characters: the leftmost occurrence of `old` becomes
`new`; an empty `old` occurs at the start. -/
def replaceFirst (old new : List Char) : List Char → List Char
  | [] => if old.isPrefixOf [] then new else []
  | c :: cs =>
    if old.isPrefixOf (c :: cs) then new ++ (c :: cs).drop old.length
    else c :: replaceFirst old new cs

def replace (s old new : String) : String := ⟨replaceFirst old.data new.data s.data⟩

theorem replaceFirst_append (old new r : List Char) :
    replaceFirst old new (old ++ r) = new ++ r := by
  have hp : old.isPrefixOf (old ++ r) = true :=
    List.isPrefixOf_iff_prefix.2 (List.prefix_append _ _)
  cases h : old ++ r with
  | nil =>
    obtain ⟨rfl, rfl⟩ := List.append_eq_nil.1 h
    simp [replaceFirst]
  | cons c cs => rw [replaceFirst, ← h, if_pos hp, List.drop_left]

theorem replaceFirst_of_not_infix (old new : List Char) :
    ∀ {s : List Char}, ¬old <:+: s → replaceFirst old new s = s
  | [], h => by
    have : old.isPrefixOf [] = false := by
      cases old with
      | nil => exact absurd List.nil_infix h
      | cons => rfl
    rw [replaceFirst, this]; rfl
  | c :: cs, h => by
    have hp : old.isPrefixOf (c :: cs) = false :=
      Bool.eq_false_iff.2 fun hp => h (List.isPrefixOf_iff_prefix.1 hp).isInfix
    rw [replaceFirst, hp, if_neg Bool.false_ne_true,
      replaceFirst_of_not_infix old new fun hi => h (hi.trans (List.suffix_cons c cs).isInfix)]

theorem replaceFirst_first {c : Char} (old new : List Char) {l : List Char} (hc : c ∉ l)
    (r : List Char) : replaceFirst (c :: old) new (l ++ c :: old ++ r) = l ++ new ++ r := by
  induction l with
  | nil => exact replaceFirst_append _ _ _
  | cons d l ih =>
    have hd : d ≠ c := fun h => hc (h ▸ List.mem_cons_self _ _)
    rw [List.mem_cons, not_or] at hc
    have hp : (c :: old).isPrefixOf (d :: (l ++ c :: old ++ r)) = false := by
      simp [List.isPrefixOf, Ne.symm hd]
    rw [List.cons_append, List.cons_append, replaceFirst, hp, if_neg Bool.false_ne_true,
      ih hc.2, List.cons_append, List.cons_append]

/-! ## `path` -/

/-- One element in the loop of `path.Clean`, on the elements kept so far, last first. -/
def cleanElem (rooted : Bool) (stack : List (List Char)) (elem : List Char) : List (List Char) :=
  if elem = [] ∨ elem = ['.'] then stack
  else if elem = ['.', '.'] then
    match stack with
    | top :: rest => if top = ['.', '.'] then elem :: stack else rest
    | [] => if rooted then [] else [elem]
  else elem :: stack

/-- `path.Clean`. -/
def pathClean (p : String) : String :=
  if p.data = [] then "." else
    let rooted := p.data.head? = some '/'
    let body := ['/'].intercalate ((p.data.splitOn '/').foldl (cleanElem rooted) []).reverse
    if rooted then ⟨'/' :: body⟩ else if body = [] then "." else ⟨body⟩

/-- `path.Join(elem...)`. -/
def pathJoin (elems : List String) : String :=
  match elems.dropWhile (· = "") with
  | [] => ""
  | es => pathClean ⟨['/'].intercalate (es.map String.data)⟩

/-! ## Keys made of path elements -/

/-- A path element `path.Clean` keeps as it is. -/
structure Segment where
  val : String
  ne_nil : val.data ≠ []
  no_slash : '/' ∉ val.data
  ne_dot : val.data ≠ ['.']
  ne_dotdot : val.data ≠ ['.', '.']

theorem Segment.eq_of_val_eq {a b : Segment} (h : a.val = b.val) : a = b := by
  cases a; cases b; cases h; rfl

theorem intercalate_cons_of_ne_nil (x : List Char) {L : List (List Char)} (h : L ≠ []) :
    ['/'].intercalate (x :: L) = x ++ '/' :: ['/'].intercalate L := by
  cases L with
  | nil => exact absurd rfl h
  | cons l L => simp [List.intercalate, List.intersperse]

theorem intercalate_cons_head (sep : List Char) (c : Char) (l : List Char) (L : List (List Char)) :
    sep.intercalate ((c :: l) :: L) = c :: sep.intercalate (l :: L) := by
  cases L <;> simp [List.intercalate, List.intersperse]

theorem intercalate_replicate_nil (n : Nat) {L : List (List Char)} (h : L ≠ []) :
    ['/'].intercalate (List.replicate n [] ++ L) = List.replicate n '/' ++ ['/'].intercalate L := by
  induction n with
  | zero => rfl
  | succ n ih =>
    rw [List.replicate_succ, List.cons_append, intercalate_cons_of_ne_nil _ (by simp [h]), ih]
    rfl

theorem cleanElem_segment (rooted : Bool) (stack : List (List Char)) (s : Segment) :
    cleanElem rooted stack s.val.data = s.val.data :: stack := by
  unfold cleanElem
  rw [if_neg (not_or.mpr ⟨s.ne_nil, s.ne_dot⟩), if_neg s.ne_dotdot]

theorem foldl_cleanElem (rooted : Bool) :
    ∀ (segs : List Segment) (stack : List (List Char)),
      (segs.map (·.val.data)).foldl (cleanElem rooted) stack = (segs.map (·.val.data)).reverse ++ stack
  | [], _ => rfl
  | s :: segs, stack => by
    rw [List.map_cons, List.foldl_cons, cleanElem_segment, foldl_cleanElem rooted segs]
    simp

@[simp] theorem cleanElem_nil (rooted : Bool) (stack : List (List Char)) :
    cleanElem rooted stack [] = stack := by
  simp [cleanElem]

theorem foldl_cleanElem_nil (rooted : Bool) (n : Nat) (stack : List (List Char)) :
    (List.replicate n []).foldl (cleanElem rooted) stack = stack := by
  induction n with
  | zero => rfl
  | succ n ih => simpa [List.replicate_succ] using ih

theorem splitOn_rooted {M : List (List Char)} (hM : ∀ l ∈ M, '/' ∉ l) (hne : M ≠ []) :
    ('/' :: ['/'].intercalate M).splitOn '/' = [] :: M :=
  (congrArg (List.splitOn '/') (intercalate_cons_of_ne_nil [] hne)).symm.trans
    (List.splitOn_intercalate _ '/' (List.forall_mem_cons.mpr ⟨List.not_mem_nil _, hM⟩)
      (List.cons_ne_nil _ _))

theorem pathClean_slashes (lead trail : Nat) (s : Segment) (rest : List Segment) :
    pathClean ⟨'/' :: ['/'].intercalate (List.replicate lead [] ++
        s.val.data :: (List.replicate trail [] ++ rest.map (·.val.data)))⟩ =
      ⟨'/' :: ['/'].intercalate ((s :: rest).map (·.val.data))⟩ := by
  have hsplit := splitOn_rooted (M := List.replicate lead [] ++
      s.val.data :: (List.replicate trail [] ++ rest.map (·.val.data))) ?_ (by simp)
  · simp only [pathClean, List.cons_ne_nil, if_false, List.head?_cons, hsplit, List.foldl_cons,
      List.foldl_append, cleanElem_nil, foldl_cleanElem_nil, cleanElem_segment, foldl_cleanElem]
    simp
  · intro l hl
    simp only [List.mem_cons, List.mem_append, List.mem_replicate, List.mem_map] at hl
    rcases hl with ⟨-, rfl⟩ | rfl | ⟨-, rfl⟩ | ⟨r, -, rfl⟩
    · exact List.not_mem_nil _
    · exact s.no_slash
    · exact List.not_mem_nil _
    · exact r.no_slash

theorem replicate_append_cons (n : Nat) (a : Char) (l : List Char) :
    List.replicate n a ++ a :: l = a :: (List.replicate n a ++ l) := by
  rw [← List.singleton_append, ← List.append_assoc, ← List.replicate_succ', List.replicate_succ,
    List.cons_append]

theorem intercalate_slashes (lead trail : Nat) (x : List Char) {L : List (List Char)} (h : L ≠ []) :
    ['/'].intercalate (('/' :: (List.replicate lead '/' ++ x ++ List.replicate trail '/')) :: L) =
      '/' :: ['/'].intercalate (List.replicate lead [] ++ x :: (List.replicate trail [] ++ L)) := by
  rw [intercalate_cons_of_ne_nil _ h, intercalate_replicate_nil _ (by simp),
    intercalate_cons_of_ne_nil _ (by simp [h]), intercalate_replicate_nil _ h]
  simp only [List.cons_append, List.append_assoc, replicate_append_cons]

theorem pathJoin_slashes (lead trail : Nat) (s : Segment) (rest : List Segment) (h : rest ≠ []) :
    pathJoin (⟨'/' :: (List.replicate lead '/' ++ s.val.data ++ List.replicate trail '/')⟩ ::
        rest.map (·.val)) =
      ⟨'/' :: ['/'].intercalate ((s :: rest).map (·.val.data))⟩ := by
  have hne : (⟨'/' :: (List.replicate lead '/' ++ s.val.data ++ List.replicate trail '/')⟩ : String)
      ≠ "" := fun h => List.cons_ne_nil _ _ (congrArg String.data h)
  rw [pathJoin, List.dropWhile_cons_of_neg (by simpa using hne), ← pathClean_slashes lead trail s rest]
  simp only [List.map_cons, List.map_map, Function.comp_def]
  rw [intercalate_slashes _ _ _ (by simpa using h)]

theorem pathJoin_segments (s : Segment) (rest : List Segment) (h : rest ≠ []) :
    pathJoin (("/" ++ s.val) :: rest.map (·.val)) =
      ⟨'/' :: ['/'].intercalate ((s :: rest).map (·.val.data))⟩ := by
  have := pathJoin_slashes 0 0 s rest h
  simp only [List.replicate_zero, List.nil_append, List.append_nil] at this
  exact this

theorem intercalate_append_single (x : List Char) :
    ∀ (l : List Char) (L : List (List Char)),
      ['/'].intercalate ((l :: L) ++ [x]) = ['/'].intercalate (l :: L) ++ '/' :: x
  | l, [] => by simp [List.intercalate]
  | l, m :: L => by
    rw [List.cons_append, intercalate_cons_of_ne_nil _ (by simp), intercalate_append_single x m L,
      intercalate_cons_of_ne_nil _ (List.cons_ne_nil _ _)]
    simp only [List.append_assoc, List.cons_append]

theorem pathJoin_child (s : Segment) (rest : List Segment) (c : Segment) :
    pathJoin [⟨'/' :: ['/'].intercalate ((s :: rest).map (·.val.data))⟩, c.val] =
      ⟨'/' :: ['/'].intercalate ((s :: rest).map (·.val.data)) ++ '/' :: c.val.data⟩ := by
  have hne : (⟨'/' :: ['/'].intercalate ((s :: rest).map (·.val.data))⟩ : String) ≠ "" :=
    fun h => List.cons_ne_nil _ _ (congrArg String.data h)
  have hpair : ∀ a b : List Char, ['/'].intercalate [a, b] = a ++ '/' :: b := fun a b => by
    simp [List.intercalate]
  have hclean := pathClean_slashes 0 0 s (rest ++ [c])
  simp only [List.replicate_zero, List.nil_append, List.map_append, List.map_cons, List.map_nil,
    ← List.cons_append, intercalate_append_single] at hclean
  rw [pathJoin, List.dropWhile_cons_of_neg (by simpa using hne)]
  simp only [List.map_cons, List.map_nil, hpair, List.cons_append]
  exact hclean

theorem hasSuffix_child {p : List Char} {n sfx : String} (h : '/' ∉ sfx.data) :
    hasSuffix ⟨p ++ '/' :: n.data⟩ sfx = hasSuffix n sfx := by
  have key : sfx.data <:+ p ++ '/' :: n.data ↔ sfx.data <:+ n.data := by
    refine ⟨fun hs => ?_, fun hs => hs.trans ((List.suffix_cons _ _).trans (List.suffix_append _ _))⟩
    rcases List.suffix_or_suffix_of_suffix hs (List.suffix_append p ('/' :: n.data)) with hs | hs
    · rcases List.suffix_cons_iff.mp hs with hs | hs
      · exact absurd (hs ▸ List.mem_cons_self _ _) h
      · exact hs
    · exact absurd (hs.subset (List.mem_cons_self _ _)) h
  unfold hasSuffix
  rw [Bool.eq_iff_iff, List.isSuffixOf_iff_suffix, List.isSuffixOf_iff_suffix]
  exact key

theorem split_segments (segs : List Segment) (h : segs ≠ []) :
    split ⟨['/'].intercalate (segs.map (·.val.data))⟩ '/' = segs.map (·.val) := by
  rw [split, List.splitOn_intercalate _ '/' _ (by simpa using h), List.map_map]
  · rfl
  · intro l hl
    obtain ⟨s, -, rfl⟩ := List.mem_map.mp hl
    exact s.no_slash

theorem head?_intercalate_segments (s : Segment) (rest : List Segment) :
    (['/'].intercalate ((s :: rest).map (·.val.data))).head? = s.val.data.head? := by
  obtain ⟨c, cs, h⟩ := List.exists_cons_of_ne_nil s.ne_nil
  simp only [List.map_cons, h, intercalate_cons_head, List.head?_cons]

theorem getLast?_intercalate_segments :
    ∀ (segs : List Segment), ∀ a ∈ (['/'].intercalate (segs.map (·.val.data))).getLast?, a ≠ '/'
  | [], a, ha => by simp [List.intercalate] at ha
  | [s], a, ha => by
    have h1 : ['/'].intercalate [s.val.data] = s.val.data := by simp [List.intercalate]
    simp only [List.map_cons, List.map_nil, h1] at ha
    exact fun h => s.no_slash (h ▸ List.mem_of_mem_getLast? ha)
  | s :: t :: rest, a, ha => by
    rw [List.map_cons, intercalate_cons_of_ne_nil _ (by simp), List.getLast?_append_cons,
      List.getLast?_cons] at ha
    cases hm : (['/'].intercalate ((t :: rest).map (·.val.data))).getLast? with
    | none =>
      have ht := head?_intercalate_segments t rest
      rw [List.getLast?_eq_none_iff.1 hm, List.head?_nil] at ht
      exact absurd (List.head?_eq_none_iff.1 ht.symm) t.ne_nil
    | some b =>
      rw [hm, Option.getD_some, Option.mem_some_iff] at ha
      exact ha ▸ getLast?_intercalate_segments (t :: rest) b hm

theorem pathJoin_unrooted (s : Segment) (rest : List Segment) :
    pathJoin ((s :: rest).map (·.val)) = ⟨['/'].intercalate ((s :: rest).map (·.val.data))⟩ := by
  have hne : s.val ≠ "" := fun h => s.ne_nil (congrArg String.data h)
  have hsplit : (['/'].intercalate ((s :: rest).map (·.val.data))).splitOn '/' =
      (s :: rest).map (·.val.data) :=
    List.splitOn_intercalate _ '/' (fun l hl => by
      obtain ⟨r, -, rfl⟩ := List.mem_map.1 hl
      exact r.no_slash) (by simp)
  have hhead := head?_intercalate_segments s rest
  obtain ⟨c, cs, hc⟩ := List.exists_cons_of_ne_nil s.ne_nil
  have hroot : (['/'].intercalate ((s :: rest).map (·.val.data))).head? ≠ some '/' := by
    rw [hhead, hc]
    exact fun h => s.no_slash (by rw [hc]; exact List.mem_cons.2 (.inl (Option.some.inj h).symm))
  have hdata : ['/'].intercalate ((s :: rest).map (·.val.data)) ≠ [] := fun h => by
    rw [h, hc] at hhead
    cases hhead
  rw [List.map_cons, pathJoin, List.dropWhile_cons_of_neg (by simpa using hne)]
  show pathClean ⟨['/'].intercalate ((s.val :: rest.map (·.val)).map String.data)⟩ = _
  rw [← List.map_cons, List.map_map]
  simp only [pathClean, Function.comp_def, hdata, hsplit, foldl_cleanElem, List.append_nil,
    List.reverse_reverse, if_false, hroot]

theorem trim_append {cutset : List Char} {l x r : List Char} (hl : ∀ a ∈ l, a ∈ cutset)
    (hr : ∀ a ∈ r, a ∈ cutset) (hx : x ≠ [])
    (hhead : ∀ a ∈ x.head?, a ∉ cutset) (hlast : ∀ a ∈ x.getLast?, a ∉ cutset) :
    trim ⟨l ++ x ++ r⟩ cutset = ⟨x⟩ := by
  have hdrop : ∀ y z : List Char, (∀ a ∈ y.head?, a ∉ cutset) → y ≠ [] →
      (y ++ z).dropWhile (· ∈ cutset) = y ++ z := by
    rintro (_ | ⟨a, y⟩) z h hy
    · exact absurd rfl hy
    · simp [List.dropWhile_cons_of_neg, h a rfl]
  have hrev := hdrop x.reverse [] (by rwa [List.head?_reverse]) (by simpa using hx)
  rw [List.append_nil] at hrev
  simp only [trim]
  rw [List.append_assoc, List.dropWhile_append_of_pos (by simpa using hl), hdrop x r hhead hx,
    List.reverse_append, List.dropWhile_append_of_pos (by simpa using hr), hrev,
    List.reverse_reverse]

theorem trim_cons {cutset : List Char} {c : Char} (hc : c ∈ cutset) {x : List Char} (hx : x ≠ [])
    (hhead : ∀ a ∈ x.head?, a ∉ cutset) (hlast : ∀ a ∈ x.getLast?, a ∉ cutset) :
    trim ⟨c :: x⟩ cutset = ⟨x⟩ := by
  simpa using trim_append (l := [c]) (r := []) (by simpa using hc) (by simp) hx hhead hlast

end Metafora
