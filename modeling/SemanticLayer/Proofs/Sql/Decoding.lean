import SemanticLayer.Proofs.Sql.Quoting
import SemanticLayer.Proofs.Sql.Reading
/-!
What an engine's rules read where a text literal or a quoted name is written: one token with the text or the
name in it, and behind it whatever stands there.
-/
namespace SemanticLayer

open Sql

namespace Sql.LexicalRules

variable {rules : LexicalRules} {previous t : Token} {place : Place} {s u rest : List Char}

/-- Whatever stands in front, a text begins with a token, behind which `rest` is left. -/
def BeginsWith (rules : LexicalRules) (s : List Char) (t : Token) (rest : List Char) : Prop :=
  ∃ c left, s = c :: left ∧ ∀ previous, rules.scan previous c left = .ok (t, rest)

/-- More steps than there are characters find the same tokens. -/
theorem lexemesFrom_steps {steps steps' : Nat} (hs : s.length ≤ steps) (hs' : s.length ≤ steps') :
    rules.lexemesFrom steps previous place s = rules.lexemesFrom steps' previous place s := by
  induction steps generalizing s steps' previous place with
  | zero =>
      obtain rfl := List.eq_nil_of_length_eq_zero (Nat.le_zero.1 hs)
      rw [lexemesFrom, lexemesFrom]
  | succ steps ih =>
      cases s with
      | nil => rw [lexemesFrom, lexemesFrom]
      | cons c rest =>
          cases steps' with
          | zero => simp at hs'
          | succ steps' =>
              rw [List.length_cons] at hs hs'
              rw [lexemesFrom, lexemesFrom]
              cases hscan : rules.scan previous c rest with
              | error stop => rfl
              | ok p =>
                  obtain ⟨token, left⟩ := p
                  have hleft := scan_length (by rw [hscan]; rfl : outline _ = some (token.shape, left))
                  dsimp only
                  rw [ih (by omega : left.length ≤ steps) (by omega : left.length ≤ steps')]

/-- The tokens of a text behind its first one are those of what is left. -/
theorem BeginsWith.lexemes (h : BeginsWith rules (u ++ rest) t rest) :
    rules.lexemes (u ++ rest) =
      (rules.lexemesFrom rest.length t (Place.start.behind u) rest).map (⟨t, .start⟩ :: ·) := by
  obtain ⟨c, left, hcons, hscan⟩ := h
  have hleft := scan_length (by rw [hscan .gap]; rfl : outline _ = some (t.shape, rest))
  have hfront : (c :: left).take ((c :: left).length - rest.length) = u := by
    rw [← hcons, List.length_append, Nat.add_sub_cancel, List.take_left]
  rw [LexicalRules.lexemes, hcons, List.length_cons, lexemesFrom, hscan .gap]
  dsimp only
  rw [hfront, lexemesFrom_steps hleft (le_refl _)]
  rfl

/-- A text is read as one token, by itself and in front of any text that does not begin with the quote. -/
structure ReadAs (rules : LexicalRules) (quote : Char) (written : List Char) (t : Token) : Prop where
  alone : rules.lexemes written = .ok [⟨t, .start⟩]
  first : ∀ rest, rest.head? ≠ some quote → BeginsWith rules (written ++ rest) t rest
  all : ∀ rest, rest.head? ≠ some quote → rules.lexemes (written ++ rest) =
    (rules.lexemesFrom rest.length t (Place.start.behind written) rest).map (⟨t, .start⟩ :: ·)

theorem readAs_of_beginsWith {quote : Char} {written : List Char}
    (h : ∀ rest, rest.head? ≠ some quote → BeginsWith rules (written ++ rest) t rest) :
    ReadAs rules quote written t where
  alone := by
    have hnil := (h [] (by simp)).lexemes
    rw [List.append_nil] at hnil
    rw [hnil, List.length_nil, lexemesFrom]
    rfl
  first := h
  all := fun rest hrest => (h rest hrest).lexemes

end Sql.LexicalRules

namespace Database

variable {rest : List Char}

open LexicalRules

theorem beginsWith_textLiteral (db : Database) (s : String) (hrest : rest.head? ≠ some '\'') :
    BeginsWith (ofDatabase db) ((db.textLiteral s).toList ++ rest) (.text .plain s) rest := by
  have hread := readText_textLiteral db .plain s hrest
  have hliteral : (db.textLiteral s).toList ++ rest = '\'' :: (db.escapeText s.toList ++ '\'' :: rest) := by
    simp [textLiteral]
  rw [hliteral] at hread ⊢
  refine ⟨_, _, rfl, fun previous => ?_⟩
  rw [← hread]
  cases db <;> rfl

theorem beginsWith_quoteName (db : Database) (s : String) (hrest : rest.head? ≠ some db.nameQuotes.2) :
    BeginsWith (ofDatabase db) ((db.quoteName s).toList ++ rest) (.word s (some db.nameQuotes.1)) rest := by
  have hname : (db.quoteName s).toList ++ rest =
      db.nameQuotes.1 :: (doubling db.nameQuotes.2 s.toList ++ db.nameQuotes.2 :: rest) := by
    simp [quoteName]
  have hclosing : closingQuote db.nameQuotes.1 = db.nameQuotes.2 := by
    cases db <;> decide
  have hread : readQuotedName
      (db.nameQuotes.1 :: (doubling db.nameQuotes.2 s.toList ++ db.nameQuotes.2 :: rest)) =
        .ok (.word s (some db.nameQuotes.1), rest) := by
    rw [readQuotedName, hclosing, quoted?_doubling hrest]
    simp
  refine ⟨_, _, hname, fun previous => ?_⟩
  rw [← hread]
  cases db <;> rfl

/-- The rules of an engine read a text literal that is written for it as that text, and a quoted name as that
name, whatever characters are in it. -/
theorem readAs_written (db : Database) (s : String) :
    ReadAs (ofDatabase db) '\'' (db.textLiteral s).toList (.text .plain s) ∧
      ReadAs (ofDatabase db) db.nameQuotes.2 (db.quoteName s).toList (.word s (some db.nameQuotes.1)) :=
  ⟨readAs_of_beginsWith fun _ hrest => beginsWith_textLiteral db s hrest,
    readAs_of_beginsWith fun _ hrest => beginsWith_quoteName db s hrest⟩

-- Quotes and backslashes next to each other, in both orders.
example : (ofDatabase .mysql).lexemes (mysql.textLiteral "\\'\\\\''").toList =
    .ok [⟨.text .plain "\\'\\\\''", .start⟩] := by
  decide +kernel

end Database

end SemanticLayer
