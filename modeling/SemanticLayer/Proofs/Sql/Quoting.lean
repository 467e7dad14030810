import SemanticLayer.Sql.Dialect
import SemanticLayer.Proofs.Sql.Readers
/-!
Text literals are read back as the texts they were written for, whatever stands behind them.
-/
namespace SemanticLayer

open Sql

namespace Sql.LexicalRules

variable {quote c d : Char} {keeps : Bool} {s rest : List Char}

theorem quoted?_doubled : quoted? quote (quote :: quote :: rest) =
    (quoted? quote rest).map fun p => (quote :: p.1, p.2) := by
  simp [quoted?]

theorem quoted?_cons (hc : c ≠ quote) :
    quoted? quote (c :: rest) = (quoted? quote rest).map fun p => (c :: p.1, p.2) := by
  cases rest with
  | nil => simp [quoted?, hc]
  | cons d rest => simp [quoted?, hc]

/-- A text whose quotes are doubled is read up to the quote behind it. -/
theorem quoted?_doubling (hrest : rest.head? ≠ some quote) (s : List Char) :
    quoted? quote (Database.doubling quote s ++ quote :: rest) = some (s, rest) := by
  induction s with
  | nil => exact quoted?_close hrest
  | cons c s ih =>
      unfold Database.doubling at ih ⊢
      rw [List.flatMap_cons]
      by_cases hc : c = quote
      · rw [if_pos hc, hc, List.append_assoc]
        simp only [List.cons_append, List.nil_append]
        rw [quoted?_doubled, ih]
        rfl
      · rw [if_neg hc, List.append_assoc]
        simp only [List.cons_append, List.nil_append]
        rw [quoted?_cons hc, ih]
        rfl

theorem quotedWithEscapes?_doubled : quotedWithEscapes? keeps quote (quote :: quote :: rest) =
    (quotedWithEscapes? keeps quote rest).map fun p => (quote :: p.1, p.2) := by
  simp [quotedWithEscapes?]

theorem quotedWithEscapes?_backslashes (hquote : quote ≠ '\\') :
    quotedWithEscapes? keeps quote ('\\' :: '\\' :: rest) =
      (quotedWithEscapes? keeps quote rest).map fun p => ('\\' :: p.1, p.2) := by
  simp [quotedWithEscapes?, hquote.symm, escapeValue]

theorem quotedWithEscapes?_cons (hc : c ≠ quote) (hescape : c ≠ '\\') :
    quotedWithEscapes? keeps quote (c :: rest) =
      (quotedWithEscapes? keeps quote rest).map fun p => (c :: p.1, p.2) := by
  cases rest with
  | nil => simp [quotedWithEscapes?, hc]
  | cons d rest => simp [quotedWithEscapes?, hc, hescape]

/-- A text whose backslashes are doubled too is read up to the quote behind it. -/
theorem quotedWithEscapes?_doubling (hquote : quote ≠ '\\') (hrest : rest.head? ≠ some quote)
    (s : List Char) :
    quotedWithEscapes? keeps quote
      (Database.doubling quote (Database.doubling '\\' s) ++ quote :: rest) = some (s, rest) := by
  induction s with
  | nil => exact quotedWithEscapes?_close hrest
  | cons c s ih =>
      unfold Database.doubling at ih ⊢
      rw [List.flatMap_cons, List.flatMap_append, List.append_assoc]
      by_cases hescape : c = '\\'
      · rw [if_pos hescape]
        simp only [List.flatMap_cons, List.flatMap_nil, if_neg hquote.symm, List.append_nil,
          List.cons_append, List.nil_append]
        rw [quotedWithEscapes?_backslashes hquote, ih, hescape]
        rfl
      · rw [if_neg hescape]
        simp only [List.flatMap_cons, List.flatMap_nil, List.append_nil]
        by_cases hc : c = quote
        · rw [if_pos hc, hc]
          simp only [List.cons_append, List.nil_append]
          rw [quotedWithEscapes?_doubled, ih]
          rfl
        · rw [if_neg hc]
          simp only [List.cons_append, List.nil_append]
          rw [quotedWithEscapes?_cons hc hescape, ih]
          rfl

end Sql.LexicalRules

namespace Database

/-- Reading a text literal takes the literal and no more, and gives the text. -/
theorem readText_textLiteral (db : Database) (kind : TextKind) (s : String) {rest : List Char}
    (hrest : rest.head? ≠ some '\'') :
    (LexicalRules.ofDatabase db).readText kind (LexicalRules.ofDatabase db).backslashEscapes
      ((db.textLiteral s).toList ++ rest) = .ok (.text kind s, rest) := by
  have hliteral : (db.textLiteral s).toList ++ rest =
      '\'' :: (db.escapeText s.toList ++ '\'' :: rest) := by
    simp [textLiteral]
  rw [hliteral]
  cases db with
  | postgresql =>
      simp [LexicalRules.readText, LexicalRules.ofDatabase, LexicalRules.postgresql, escapeText,
        LexicalRules.quoted?_doubling hrest]
  | mssql =>
      simp [LexicalRules.readText, LexicalRules.ofDatabase, LexicalRules.mssql, escapeText,
        LexicalRules.quoted?_doubling hrest]
  | mysql =>
      have hquote : '\'' ≠ '\\' := by decide
      simp [LexicalRules.readText, LexicalRules.ofDatabase, LexicalRules.mysql, escapeText,
        LexicalRules.quotedWithEscapes?_doubling hquote hrest]

end Database

end SemanticLayer
