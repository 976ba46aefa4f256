import PipelineRunner.Pipeline.Basic

/-!
Image references. A reference names a tag or a digest if its last path segment does; a port of a
registry stands in an earlier segment and does not count.
-/

namespace PipelineRunner

namespace Image

def defaultTag : String := "latest"

/-- The characters behind the last slash. -/
def lastSegment (cs : List Char) : List Char :=
  (cs.reverse.takeWhile (· != '/')).reverse

/-- Whether the last segment names a tag or a digest. -/
def isTagged (cs : List Char) : Bool :=
  (lastSegment cs).any fun c => c == ':' || c == '@'

/-- The reference with the default tag if it has no tag. -/
def normalize (image : String) : String :=
  if isTagged image.toList then image else image ++ ":" ++ defaultTag

/-- A tag has no slash in it, so it stands in the last segment. -/
theorem isTagged_append_tag (cs : List Char) {tag : List Char} (plain : '/' ∉ tag) :
    isTagged (cs ++ ':' :: tag) = true := by
  have behind : (cs ++ ':' :: tag).reverse.takeWhile (· != '/') =
      (tag.reverse ++ [':']) ++ cs.reverse.takeWhile (· != '/') := by
    rw [List.reverse_append, List.reverse_cons]
    refine List.takeWhile_append_of_pos fun c mem => ?_
    rcases List.mem_append.mp mem with mem | mem
    · have other : c ≠ '/' := by
        rintro rfl
        exact plain (List.mem_reverse.mp mem)
      simpa using other
    · simp [List.mem_singleton.mp mem]
  have colon : ':' ∈ lastSegment (cs ++ ':' :: tag) := by
    rw [lastSegment, behind]
    simp
  exact List.any_eq_true.mpr ⟨':', colon, rfl⟩

/-- A reference that has been given the default tag has a tag. -/
theorem isTagged_normalize (image : String) : isTagged (normalize image).toList = true := by
  unfold normalize
  split
  next tagged => exact tagged
  next =>
    have spelled : (image ++ ":" ++ defaultTag).toList = image.toList ++ ':' :: defaultTag.toList := by
      simp
    rw [spelled]
    exact isTagged_append_tag _ (by decide)

/-- So it is not given a second one. -/
@[simp]
theorem normalize_normalize (image : String) : normalize (normalize image) = normalize image :=
  if_pos (isTagged_normalize image)

end Image

/-- The image that a stage with this agent runs in, with its tag. -/
def Agent.image? : Agent → Option String
  | none => Option.none
  | docker image => some (Image.normalize image)

end PipelineRunner
