import Rulebook.Proofs.Expr.Grammar
import Rulebook.Proofs.Expr.Reader

namespace Rulebook.Parser

open Rulebook.Expr (parts)
open Rulebook.Grammar

variable (parser : Parser)

theorem lexemes_cons (token : Token) (tokens : List Token) :
    lexemes (token :: tokens) = token.lexeme ++ lexemes tokens := by
  simp [lexemes]

theorem subscript_eq_some {text whole : String} {tokens rest : List Token} {last : Nat} :
    (subscript text tokens).map Expr.Reading.parts = some (whole, last, rest) ↔
      ∃ inner closing, tokens = inner ++ closing :: rest ∧
        (∀ token ∈ inner, token.kind ≠ .rightBracket) ∧ closing.kind = .rightBracket ∧
        whole = text ++ lexemes inner ∧ last = closing.position := by
  induction tokens generalizing text with
  | nil => simp [subscript]
  | cons token tokens ih =>
      rw [subscript]
      by_cases closes : token.kind = .rightBracket
      · rw [if_pos closes]
        constructor
        · intro found
          simp only [Option.map_some, Expr.Reading.parts, Option.some.injEq, Prod.mk.injEq] at found
          rcases found with ⟨rfl, rfl, rfl⟩
          exact ⟨[], token, rfl, by simp, closes, by simp [lexemes], rfl⟩
        · intro bracket
          rcases bracket with ⟨inner, closing, split, inside, -, rfl, rfl⟩
          cases inner with
          | nil =>
              rcases List.cons.inj split with ⟨rfl, rfl⟩
              simp [Expr.Reading.parts, lexemes]
          | cons first inner =>
              rcases List.cons.inj split with ⟨rfl, -⟩
              exact absurd closes (inside token List.mem_cons_self)
      · rw [if_neg closes]
        have same : ((subscript (text ++ token.lexeme) tokens).map fun inner =>
            inner.widen (Nat.le_succ _)).map Expr.Reading.parts =
              (subscript (text ++ token.lexeme) tokens).map Expr.Reading.parts := by
          cases subscript (text ++ token.lexeme) tokens <;> rfl
        rw [same, ih]
        constructor
        · intro bracket
          rcases bracket with ⟨inner, closing, rfl, inside, at_closing, rfl, rfl⟩
          refine ⟨token :: inner, closing, rfl, ?_, at_closing, ?_, rfl⟩
          · intro other member
            rcases List.mem_cons.mp member with rfl | member
            · exact closes
            · exact inside other member
          · rw [lexemes_cons, String.append_assoc]
        · intro bracket
          rcases bracket with ⟨inner, closing, split, inside, at_closing, rfl, rfl⟩
          cases inner with
          | nil =>
              rcases List.cons.inj split with ⟨rfl, -⟩
              exact absurd at_closing closes
          | cons first inner =>
              rcases List.cons.inj split with ⟨rfl, rfl⟩
              refine ⟨inner, closing, rfl, ?_, at_closing, ?_, rfl⟩
              · intro other member
                exact inside other (List.mem_cons_of_mem token member)
              · rw [lexemes_cons, String.append_assoc]

theorem subscript_eq_none {text : String} {tokens : List Token}
    (unclosed : subscript text tokens = none) : ∀ token ∈ tokens, token.kind ≠ .rightBracket := by
  induction tokens generalizing text with
  | nil => exact nofun
  | cons token tokens ih =>
      rw [subscript] at unclosed
      split at unclosed
      · cases unclosed
      · rename_i open_still
        exact List.forall_mem_cons.mpr ⟨open_still, ih (Option.map_eq_none_iff.mp unclosed)⟩

def Goes (tokens rest : List Token) (text : String) : Prop :=
  ∃ middle subscripts, Subscripts tokens middle subscripts ∧
    ((middle = rest ∧ text = subscripts) ∨
      ∃ further, Segments middle rest further ∧ text = subscripts ++ further)

theorem Goes.segments {point name : Token} {tokens rest : List Token} {text : String}
    (at_point : point.kind = .dot) (at_name : name.kind = .identifier)
    (goes : Goes tokens rest text) :
    Segments (point :: name :: tokens) rest ("." ++ name.lexeme ++ text) := by
  rcases goes with ⟨middle, subscripts, read, ⟨rfl, rfl⟩ | ⟨further, segments, rfl⟩⟩
  · exact .last at_point at_name read
  · rw [← String.append_assoc]
    exact .more at_point at_name read segments

theorem Goes.subscript {opening closing : Token} {inner tokens rest : List Token} {text : String}
    (opens : opening.kind = .leftBracket) (inside : ∀ token ∈ inner, token.kind ≠ .rightBracket)
    (closes : closing.kind = .rightBracket) (goes : Goes tokens rest text) :
    Goes (opening :: (inner ++ closing :: tokens)) rest ("[" ++ lexemes inner ++ "]" ++ text) := by
  rcases goes with ⟨middle, subscripts, read, rest_read⟩
  refine ⟨middle, _, .more opens inside closes read, ?_⟩
  rcases rest_read with ⟨rfl, rfl⟩ | ⟨further, segments, rfl⟩
  · exact .inl ⟨rfl, rfl⟩
  · exact .inr ⟨further, segments, by simp only [String.append_assoc]⟩

/-- Reading on in a path follows its grammar. The induction is on the number of tokens, of which
each segment and each subscript leaves fewer. -/
theorem featurePath_goes {path whole : String} {last position : Nat} {tokens rest : List Token}
    (read : parts (parser.featurePath path last tokens) = .ok (whole, position, rest)) :
    ∃ text, Goes tokens rest text ∧ whole = path ++ text := by
  induction size : tokens.length using Nat.strongRecOn generalizing path last tokens with
  | ind size ih =>
      subst size
      by_cases at_point : ∃ point after, tokens = point :: after ∧ point.kind = .dot
      · rcases at_point with ⟨point, after, rfl, at_point⟩
        by_cases at_name : ∃ name further, after = name :: further ∧ name.kind = .identifier
        · rcases at_name with ⟨name, further, rfl, at_name⟩
          rw [parts_featurePath_name parser at_point at_name] at read
          rcases ih _ (by simp only [List.length_cons]; omega) read rfl with ⟨text, goes, rfl⟩
          refine ⟨"." ++ name.lexeme ++ text, ⟨_, "", .none, .inr ?_⟩, ?_⟩
          · exact ⟨_, goes.segments at_point at_name, by simp⟩
          · simp only [String.append_assoc]
        · rw [parts_featurePath_point parser at_point] at read
          · cases read
          · intro name found named
            cases after with
            | nil => cases found
            | cons first further => exact at_name ⟨first, further, rfl, by simp_all⟩
      · by_cases opens : ∃ opening after, tokens = opening :: after ∧ opening.kind = .leftBracket
        · rcases opens with ⟨opening, after, rfl, opens⟩
          rw [parts_featurePath_subscript parser opens] at read
          split at read
          · cases read
          · rename_i text closed further found
            rcases subscript_eq_some.mp found with ⟨inner, closing, rfl, inside, closes, rfl, rfl⟩
            have shorter : further.length < (opening :: (inner ++ closing :: further)).length := by
              simp only [List.length_cons, List.length_append]
              omega
            rcases ih _ shorter read rfl with ⟨text, goes, rfl⟩
            refine ⟨_, goes.subscript opens inside closes, ?_⟩
            simp only [String.append_assoc]
        · rw [parts_featurePath_stop] at read
          · simp only [Except.ok.injEq, Prod.mk.injEq] at read
            rcases read with ⟨rfl, -, rfl⟩
            exact ⟨"", ⟨tokens, "", .none, .inl ⟨rfl, rfl⟩⟩, by simp⟩
          · intro token found
            cases tokens with
            | nil => cases found
            | cons first after =>
                obtain rfl : first = token := by simpa using found
                constructor
                · exact fun is_point => at_point ⟨first, after, rfl, is_point⟩
                · exact fun is_opening => opens ⟨first, after, rfl, is_opening⟩

theorem segments_of_featurePath {point : Token} {path whole : String} {last position : Nat}
    {tokens rest : List Token} (at_point : point.kind = .dot)
    (read : parts (parser.featurePath path last (point :: tokens)) = .ok (whole, position, rest)) :
    ∃ text, Segments (point :: tokens) rest text ∧ whole = path ++ text := by
  by_cases at_name : ∃ name after, tokens = name :: after ∧ name.kind = .identifier
  · rcases at_name with ⟨name, after, rfl, at_name⟩
    rw [parts_featurePath_name parser at_point at_name] at read
    rcases parser.featurePath_goes read with ⟨text, goes, rfl⟩
    exact ⟨_, goes.segments at_point at_name, by simp only [String.append_assoc]⟩
  · rw [parts_featurePath_point parser at_point] at read
    · cases read
    · intro name found named
      cases tokens with
      | nil => cases found
      | cons first after => exact at_name ⟨first, after, rfl, by simp_all⟩

theorem featurePath_subscripts {tokens middle : List Token} {text : String}
    (subscripts : Subscripts tokens middle text) (path : String) (last : Nat) :
    ∃ position, parts (parser.featurePath path last tokens) =
      parts (parser.featurePath (path ++ text) position middle) := by
  induction subscripts generalizing path last with
  | none => exact ⟨last, by rw [String.append_empty]⟩
  | @more opening closing inner tokens rest text opens inside closes further ih =>
      rw [parts_featurePath_subscript parser opens,
        subscript_eq_some.mpr ⟨inner, closing, rfl, inside, closes, rfl, rfl⟩]
      rcases ih (path ++ "[" ++ lexemes inner ++ "]") closing.position with ⟨position, same⟩
      refine ⟨position, same.trans ?_⟩
      simp only [String.append_assoc]

theorem featurePath_of_segments {tokens rest : List Token} {text : String}
    (segments : Segments tokens rest text) (stops : Stops [] rest) (path : String) (last : Nat) :
    ∃ position,
      parts (parser.featurePath path last tokens) = .ok (path ++ text, position, rest) := by
  induction segments generalizing path last with
  | @last point name tokens rest text at_point at_name subscripts =>
      rw [parts_featurePath_name parser at_point at_name]
      obtain ⟨position, same⟩ := parser.featurePath_subscripts subscripts
        (path ++ "." ++ name.lexeme) name.position
      refine ⟨position, ?_⟩
      rw [same, parts_featurePath_stop]
      · simp only [String.append_assoc]
      · intro token found
        exact ⟨(stops token found).1, (stops token found).2.1⟩
  | @more point name tokens middle rest text further at_point at_name subscripts segments ih =>
      rw [parts_featurePath_name parser at_point at_name]
      obtain ⟨position, same⟩ := parser.featurePath_subscripts subscripts
        (path ++ "." ++ name.lexeme) name.position
      rcases ih stops (path ++ "." ++ name.lexeme ++ text) position with ⟨final, read⟩
      refine ⟨final, ?_⟩
      rw [same, read]
      simp only [String.append_assoc]

end Rulebook.Parser
