import StepChain.Address
import Mathlib

/-!
# Paths that can be read back

A path is a text. Where no key contains a character that starts a written segment, there is
one way only to divide the text into segments, and different segments lead from one address
to different ones.
-/

namespace StepChain

namespace Segment

/-- The characters that a written segment starts with. -/
def starts (char : Char) : Bool :=
  char = '/' || char = '['

/-- Nothing inside a segment looks like the start of another one. -/
def Readable : Segment → Prop
  | key name => ∀ char ∈ name.toList, starts char = false
  | index _ => True

def first : Segment → Char
  | key _ => '/'
  | index _ => '['

/-- The written form after its first character. -/
def body : Segment → List Char
  | key name => name.toList
  | index position => position.repr.toList ++ [']']

theorem toList_render (segment : Segment) :
    segment.render.toList = segment.first :: segment.body := by
  cases segment <;> simp [render, first, body, String.toList_append]

theorem starts_first (segment : Segment) : starts segment.first = true := by
  cases segment <;> rfl

theorem not_starts_of_isDigit {char : Char} (hdigit : char.isDigit = true) :
    starts char = false := by
  have hne : ∀ other : Char, other.isDigit = false → char ≠ other := by
    rintro other hother rfl
    simp [hother] at hdigit
  simp [starts, hne '/' rfl, hne '[' rfl]

theorem not_starts_body {segment : Segment} (hreadable : segment.Readable) :
    ∀ char ∈ segment.body, starts char = false := by
  cases segment with
  | key name => exact hreadable
  | index position =>
      intro char hchar
      rcases List.mem_append.mp hchar with hdigit | hclose
      · rw [Nat.repr_eq_ofList_toDigits, String.toList_ofList] at hdigit
        exact not_starts_of_isDigit (Nat.isDigit_of_mem_toDigits (by decide) (by decide) hdigit)
      · obtain rfl := List.mem_singleton.mp hclose
        rfl

theorem eq_of_parts {left right : Segment} (hfirst : left.first = right.first)
    (hbody : left.body = right.body) : left = right := by
  cases left with
  | key name =>
      cases right with
      | key other => exact congrArg key (String.toList_inj.mp hbody)
      | index position => exact absurd hfirst (by simp [first])
  | index position =>
      cases right with
      | key name => exact absurd hfirst (by simp [first])
      | index other =>
          have hrepr : position.repr = other.repr :=
            String.toList_inj.mp (List.append_cancel_right hbody)
          exact congrArg index (Nat.repr_inj.mp hrepr)

@[simp] theorem renderAll_nil : renderAll [] = "" := rfl

theorem toList_renderAll_cons (segment : Segment) (rest : List Segment) :
    (renderAll (segment :: rest)).toList =
      segment.first :: (segment.body ++ (renderAll rest).toList) := by
  simp [renderAll, String.toList_append, toList_render]

/-- The body of the first segment is what stands before the next start of a segment. -/
theorem takeWhile_body {segment : Segment} (hreadable : segment.Readable) (rest : List Segment) :
    (segment.body ++ (renderAll rest).toList).takeWhile (fun char => !starts char) =
      segment.body := by
  have hrest : (renderAll rest).toList.takeWhile (fun char => !starts char) = [] := by
    cases rest with
    | nil => rfl
    | cons next later => simp [toList_renderAll_cons, starts_first]
  rw [List.takeWhile_append_of_pos (by simpa using not_starts_body hreadable), hrest,
    List.append_nil]

theorem renderAll_inj {left right : List Segment} (hleft : ∀ segment ∈ left, segment.Readable)
    (hright : ∀ segment ∈ right, segment.Readable) (heq : renderAll left = renderAll right) :
    left = right := by
  have hchars : (renderAll left).toList = (renderAll right).toList := congrArg _ heq
  clear heq
  induction left generalizing right with
  | nil =>
      cases right with
      | nil => rfl
      | cons segment rest => simp [toList_renderAll_cons] at hchars
  | cons segment rest ih =>
      cases right with
      | nil => simp [toList_renderAll_cons] at hchars
      | cons other more =>
          obtain ⟨hsegment, hrest⟩ := List.forall_mem_cons.mp hleft
          obtain ⟨hother, hmore⟩ := List.forall_mem_cons.mp hright
          rw [toList_renderAll_cons, toList_renderAll_cons] at hchars
          obtain ⟨hfirst, htail⟩ := List.cons_eq_cons.mp hchars
          have hbody : segment.body = other.body := by
            have htaken := congrArg (List.takeWhile fun char => !starts char) htail
            rwa [takeWhile_body hsegment, takeWhile_body hother] at htaken
          rw [hbody] at htail
          rw [eq_of_parts hfirst hbody, ih hrest hmore (List.append_cancel_left htail)]

end Segment

namespace Address

theorem extend_inj {addr : Address} {left right : List Segment}
    (hleft : ∀ segment ∈ left, segment.Readable) (hright : ∀ segment ∈ right, segment.Readable)
    (heq : addr.extend left = addr.extend right) : left = right := by
  have hpath : addr.path ++ Segment.renderAll left = addr.path ++ Segment.renderAll right :=
    congrArg path heq
  exact Segment.renderAll_inj hleft hright ((String.append_right_inj _).mp hpath)

/-- Readable segments can be told from the address they lead to. Whatever the segments, they
lead to the same address in one go or one after the other, inside the same file. -/
theorem extend_decodes (addr : Address) :
    (∀ left right : List Segment, (∀ segment ∈ left, segment.Readable) →
        (∀ segment ∈ right, segment.Readable) →
        (addr.extend left = addr.extend right ↔ left = right)) ∧
      ∀ left right : List Segment,
        addr.extend (left ++ right) = (addr.extend left).extend right ∧
          (addr.extend left).filename = addr.filename := by
  constructor
  · intro left right hleft hright
    exact ⟨extend_inj hleft hright, congrArg addr.extend⟩
  · intro left right
    exact ⟨addr.extend_append left right, addr.filename_extend left⟩

/-- A key that looks like the end of a position, beside one that is empty. -/
theorem closingKeys_decode :
    let left : List Segment := [.key "a]", .index 12, .key ""]
    let right : List Segment := [.key "a]12]", .key ""]
    (∀ segment ∈ left, segment.Readable) ∧ (∀ segment ∈ right, segment.Readable) ∧
      (Address.root "spam.yaml").extend left ≠ (Address.root "spam.yaml").extend right := by
  intro left right
  have hleft : ∀ segment ∈ left, segment.Readable := by
    simp [left, Segment.Readable, Segment.starts]
  have hright : ∀ segment ∈ right, segment.Readable := by
    simp [right, Segment.Readable, Segment.starts]
  have hiff := (Address.root "spam.yaml").extend_decodes.1 left right hleft hright
  exact ⟨hleft, hright, fun heq => absurd (hiff.mp heq) (by decide)⟩

/-- A key with the start of a segment inside reads like two segments. -/
example : (Address.root "spam.yaml").extend [.key "a[0]"] =
    (Address.root "spam.yaml").extend [.key "a", .index 0] := by
  decide +kernel

end Address

end StepChain
