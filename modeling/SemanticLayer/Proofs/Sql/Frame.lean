import SemanticLayer.Query.Filter
/-!
Texts with a place in them: what a statement, a condition and a literal put around one of their parts.
-/
namespace SemanticLayer

/-- What stands in front of a place and behind it. -/
structure Frame where
  front : String
  back : String

namespace Frame

def around (f : Frame) (s : String) : String :=
  f.front ++ s ++ f.back

def within (outer inner : Frame) : Frame :=
  ⟨outer.front ++ inner.front, inner.back ++ outer.back⟩

/-- No quote stands directly behind the place, so that a text literal there ends at its own. -/
def Calm (f : Frame) : Prop :=
  f.back.toList.head? ≠ some '\''

/-- The place among parts that are written with a separator between them. -/
def between (separator : String) (before behind : List String) : Frame where
  front := if before = [] then "" else String.intercalate separator before ++ separator
  back := if behind = [] then "" else separator ++ String.intercalate separator behind

variable {outer inner : Frame}

theorem around_within (outer inner : Frame) (s : String) :
    (outer.within inner).around s = outer.around (inner.around s) := by
  simp [within, around, String.append_assoc]

theorem Calm.within (houter : outer.Calm) (hinner : inner.Calm) : (outer.within inner).Calm := by
  unfold Calm Frame.within at *
  rw [String.toList_append, List.head?_append]
  cases hhead : inner.back.toList.head? with
  | none => simpa using houter
  | some c => simpa [hhead] using hinner

theorem between_calm {separator : String} (hseparator : separator ≠ "")
    (hcalm : separator.toList.head? ≠ some '\'') (before behind : List String) :
    (between separator before behind).Calm := by
  unfold Calm between
  by_cases hbehind : behind = []
  · simp [hbehind]
  · simp only [if_neg hbehind, String.toList_append, List.head?_append]
    cases hhead : separator.toList.head? with
    | none => exact absurd (by simpa using hhead) hseparator
    | some c => simpa [hhead] using hcalm

theorem intercalate_around (separator s : String) (before behind : List String) :
    String.intercalate separator (before ++ s :: behind) =
      (between separator before behind).around s := by
  have hend : String.intercalate separator (s :: behind) =
      s ++ (between separator before behind).back := by
    by_cases hbehind : behind = []
    · simp [between, hbehind]
    · simp [between, hbehind, String.intercalate_cons_of_ne_nil hbehind, String.append_assoc]
  by_cases hbefore : before = []
  · simpa [around, between, hbefore] using hend
  · rw [String.intercalate_append_of_ne_nil hbefore (by simp), hend]
    simp [around, between, hbefore, String.append_assoc]

end Frame

/-! ## Literals -/

/-- A place in a value: the value itself, or a place in an item of an array. -/
inductive Hole where
  | here
  | item (before : List Json) (inside : Hole) (behind : List Json)

namespace Hole

def fill (value : Json) : Hole → Json
  | here => value
  | item before inside behind => .arr (before ++ inside.fill value :: behind)

/-- What the literal of a value puts around that of the place. -/
def frame (db : Database) : Hole → Frame
  | here => ⟨"", ""⟩
  | item before inside behind =>
      (Frame.between ", " (db.literals before) (db.literals behind)).within (inside.frame db)

theorem frame_calm (db : Database) (hole : Hole) : (hole.frame db).Calm := by
  induction hole with
  | here => simp [frame, Frame.Calm]
  | item before inside behind ih =>
      exact (Frame.between_calm (by decide) (by decide) _ _).within ih

end Hole

theorem Database.literals_append (db : Database) (xs ys : List Json) :
    db.literals (xs ++ ys) = db.literals xs ++ db.literals ys := by
  induction xs with
  | nil => rfl
  | cons x xs ih => simp [literals, ih]

theorem Hole.literal_fill (db : Database) (hole : Hole) (value : Json) :
    db.literal (hole.fill value) = (hole.frame db).around (db.literal value) := by
  induction hole with
  | here => simp [fill, frame, Frame.around]
  | item before inside behind ih =>
      unfold fill frame
      rw [Database.literal, Database.literals_append, Database.literals, Frame.intercalate_around, ih,
        Frame.around_within]

end SemanticLayer
