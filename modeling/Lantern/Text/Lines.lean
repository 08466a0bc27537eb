/-
  Lantern.Text.Lines — white space at the ends of a text, and cutting into lines.

  White space is the Unicode property of that name, not the ASCII class: a no-break
  space or a line separator is trimmed like a plain space.

  `cutAfter` works on anything with an end mark, so a stream of bytes is cut the same
  way as a text. Nothing is lost (`cutAfter_flatten`). `lines` drops the line ends: a
  newline, and one carriage return before it.
-/

namespace Lantern.Text

/-! ## White space -/

/-- The Unicode property White_Space. -/
def isBlank (c : Char) : Bool :=
  let n := c.toNat
  (0x9 ≤ n && n ≤ 0xd) || n == 0x20 || n == 0x85 || n == 0xa0 || n == 0x1680 || (0x2000 ≤ n && n ≤ 0x200a) ||
    n == 0x2028 || n == 0x2029 || n == 0x202f || n == 0x205f || n == 0x3000

def trimmed (text : String) : String :=
  String.ofList ((text.toList.dropWhile isBlank).reverse.dropWhile isBlank).reverse

/-! ## Lines -/

/-- Cut `input` after each end mark. Only the last piece may lack its mark, and no piece
    is empty. -/
def cutAfter {α : Type} (isMark : α → Bool) (input : List α) : List (List α) :=
  match _h : input.dropWhile (!isMark ·) with
  | [] => if input.isEmpty then [] else [input]
  | mark :: rest => (input.takeWhile (!isMark ·) ++ [mark]) :: cutAfter isMark rest
termination_by input.length
decreasing_by
  have := (List.dropWhile_suffix (!isMark ·) (l := input)).length_le
  simp only [_h, List.length_cons] at this
  omega

theorem cutAfter_flatten {α : Type} (isMark : α → Bool) (input : List α) :
    (cutAfter isMark input).flatten = input := by
  fun_induction cutAfter isMark input with
  | case1 input _ empty => simpa using (List.isEmpty_iff.1 empty).symm
  | case2 => simp
  | case3 input mark rest h ih =>
    rw [List.flatten_cons, ih, List.append_assoc, List.singleton_append, ← h, List.takeWhile_append_dropWhile]

def dropLineEnd (line : List Char) : List Char :=
  match line.reverse with
  | '\n' :: '\r' :: rest => rest.reverse
  | '\n' :: rest => rest.reverse
  | _ => line

def lines (text : String) : List String :=
  (cutAfter (· == '\n') text.toList).map fun line => String.ofList (dropLineEnd line)

end Lantern.Text
