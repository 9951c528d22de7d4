import Regen.Document.Chunk
import Regen.Proofs.HeaderPrinting

/-! Reading a marker elsewhere. Positions are only carried along: a marker that
is read in one place is read in every other, and says the same there. -/
namespace Regen

namespace Header

/-- A fault lies in a lexeme, not in its place. -/
theorem fault?_eq_none {lexeme : Lexeme} {loc : Position} (sound : lexeme.fault? loc = none)
    (elsewhere : Position) : lexeme.fault? elsewhere = none := by
  unfold Lexeme.fault? at sound ⊢
  split at sound
  · cases sound
  · exact sound
  · rfl

section Tokens
variable {loc : Position} {tokens others rest : List Token}

theorem means_of_ofLexemes {lexemes : List Lexeme} (read : Token.ofLexemes loc lexemes = .ok tokens) :
    (∀ lexeme ∈ lexemes, ∀ elsewhere, lexeme.fault? elsewhere = none) ∧
      lexemes.filterMap Lexeme.symbol? = tokens.map Token.symbol := by
  induction lexemes generalizing loc tokens with
  | nil =>
    cases read
    simp
  | cons lexeme more ih =>
    unfold Token.ofLexemes at read
    split at read
    · cases read
    · rename_i sound
      cases later : Token.ofLexemes (loc.advance lexeme.text) more with
      | error fault =>
        rw [later] at read
        cases lexeme.symbol? <;> cases read
      | ok following =>
        obtain ⟨fine, spelled⟩ := ih later
        rw [later] at read
        refine ⟨?_, ?_⟩
        · intro chosen member elsewhere
          rcases List.mem_cons.mp member with rfl | member
          · exact fault?_eq_none sound elsewhere
          · exact fine chosen member elsewhere
        · rw [List.filterMap_cons]
          cases meant : lexeme.symbol? with
          | none =>
            simp only [meant, Except.ok.injEq] at read
            simp [spelled, read]
          | some symbol =>
            simp only [meant, Except.ok.injEq] at read
            simp [spelled, ← read]

theorem means_of_tokenize {text : Text} (read : tokenize text loc = .ok tokens) :
    Means text (tokens.map Token.symbol) :=
  ⟨(means_of_ofLexemes read).1, (means_of_ofLexemes read).2⟩

end Tokens

section Grammar
variable {tokens others rest : List Token}

theorem expectIdentifier_elsewhere {word : String} (read : expectIdentifier tokens = .ok (word, rest))
    (same : others.map Token.symbol = tokens.map Token.symbol) :
    ∃ rest', expectIdentifier others = .ok (word, rest') ∧
      rest'.map Token.symbol = rest.map Token.symbol := by
  obtain ⟨loc, rfl⟩ := expectIdentifier_ok read
  obtain ⟨⟨symbol, loc'⟩, rest', rfl, rfl, after⟩ := List.map_eq_cons_iff.mp same
  exact ⟨rest', rfl, after⟩

theorem expectColon_elsewhere (read : expectColon tokens = .ok rest)
    (same : others.map Token.symbol = tokens.map Token.symbol) :
    ∃ rest', expectColon others = .ok rest' ∧ rest'.map Token.symbol = rest.map Token.symbol := by
  obtain ⟨loc, rfl⟩ := expectColon_ok read
  obtain ⟨⟨symbol, loc'⟩, rest', rfl, rfl, after⟩ := List.map_eq_cons_iff.mp same
  exact ⟨rest', rfl, after⟩

theorem parseName_elsewhere {namespaceName : String} {name : ActionName}
    (read : parseName namespaceName tokens = .ok (name, rest))
    (same : others.map Token.symbol = tokens.map Token.symbol) :
    ∃ rest', parseName namespaceName others = .ok (name, rest') ∧
      rest'.map Token.symbol = rest.map Token.symbol := by
  cases tokens with
  | nil => cases read
  | cons token tokens =>
    obtain ⟨symbol, loc⟩ := token
    obtain ⟨⟨symbol', loc'⟩, others, rfl, rfl, alike⟩ := List.map_eq_cons_iff.mp same
    cases symbol' with
    | colon =>
      obtain ⟨⟨action, after⟩, named, ended⟩ := bind_eq_ok_iff.mp read
      cases ended
      obtain ⟨rest', named', alike⟩ := expectIdentifier_elsewhere named alike
      exact ⟨rest', bind_eq_ok_iff.mpr ⟨_, named', rfl⟩, alike⟩
    | identifier word =>
      obtain ⟨afterColon, colon, more⟩ := bind_eq_ok_iff.mp read
      obtain ⟨⟨action, after⟩, named, ended⟩ := bind_eq_ok_iff.mp more
      cases ended
      obtain ⟨between, colon', alike⟩ := expectColon_elsewhere colon alike
      obtain ⟨rest', named', alike⟩ := expectIdentifier_elsewhere named alike
      exact ⟨rest', bind_eq_ok_iff.mpr ⟨_, colon', bind_eq_ok_iff.mpr ⟨_, named', rfl⟩⟩, alike⟩
    | _ => cases read

theorem parseParams_elsewhere {params : List Parameter} (read : parseParams tokens = .ok params)
    (same : others.map Token.symbol = tokens.map Token.symbol) :
    ∃ params', parseParams others = .ok params' ∧
      params'.map Parameter.entry = params.map Parameter.entry := by
  fun_induction parseParams tokens generalizing others params with
  | case1 =>
    cases read
    obtain rfl := List.map_eq_nil_iff.mp same
    exact ⟨[], rfl, rfl⟩
  | case7 key colon value rest name literal colon' literal' identifier params' inner ih =>
    cases read
    simp only [List.map_cons, List.map_eq_cons_iff] at same
    obtain ⟨⟨_, loc⟩, _, rfl, rfl, ⟨_, _⟩, _, rfl, rfl, ⟨_, _⟩, others, rfl, rfl, same⟩ := same
    obtain ⟨params'', read, entries⟩ := ih inner same
    refine ⟨⟨name, literal, loc⟩ :: params'', ?_, ?_⟩
    · simp [parseParams, identifier, colon', literal', read]
    · simp [Parameter.entry, entries]
  | _ => cases read

/-- What a header says, the positions of its parameters apart. -/
def entries : Header → ActionName × Option (List (String × Literal))
  | .start name params => (name, some (params.map Parameter.entry))
  | .stop name => (name, none)

theorem parse_elsewhere {namespaceName : String} {header : Header}
    (read : parse namespaceName tokens = .ok header)
    (same : others.map Token.symbol = tokens.map Token.symbol) :
    ∃ header', parse namespaceName others = .ok header' ∧ header'.entries = header.entries := by
  unfold parse at read
  split at read
  · rename_i loc rest
    obtain ⟨⟨_, loc'⟩, rest', rfl, rfl, alike⟩ := List.map_eq_cons_iff.mp same
    obtain ⟨⟨name, after⟩, named, more⟩ := bind_eq_ok_iff.mp read
    obtain ⟨params, listed, ended⟩ := bind_eq_ok_iff.mp more
    cases params with
    | cons param params => cases ended
    | nil =>
      cases ended
      obtain ⟨after', named', alike⟩ := parseName_elsewhere named alike
      obtain ⟨params', listed', entries⟩ := parseParams_elsewhere listed alike
      obtain rfl := List.map_eq_nil_iff.mp entries
      exact ⟨.stop name, bind_eq_ok_iff.mpr ⟨_, named', bind_eq_ok_iff.mpr ⟨_, listed', rfl⟩⟩, rfl⟩
  · rename_i unslashed
    obtain ⟨⟨name, after⟩, named, more⟩ := bind_eq_ok_iff.mp read
    obtain ⟨params, listed, ended⟩ := bind_eq_ok_iff.mp more
    cases ended
    obtain ⟨after', named', alike⟩ := parseName_elsewhere named same
    obtain ⟨params', listed', entries⟩ := parseParams_elsewhere listed alike
    refine ⟨.start name params', ?_, by simp [Header.entries, entries]⟩
    unfold parse
    split
    · rename_i loc rest
      obtain ⟨⟨_, loc'⟩, rest', rfl, rfl, -⟩ := List.map_eq_cons_iff.mp same.symm
      exact absurd rfl (unslashed loc' rest')
    · exact bind_eq_ok_iff.mpr ⟨_, named', bind_eq_ok_iff.mpr ⟨_, listed', rfl⟩⟩

end Grammar
end Header

namespace Chunk

/-- A chunk without positions. -/
inductive Bare where
  | text (content : Text)
  | start (name : Header.ActionName) (params : List (String × Header.Literal)) (raw : Text)
  | stop (name : Header.ActionName) (raw : Text)

/-- The chunk without its positions. -/
def bare : Chunk → Bare
  | .text content _ => .text content
  | .start marker => .start marker.name (marker.params.map Header.Parameter.entry) marker.raw
  | .stop marker => .stop marker.name marker.raw

/-- The part of a document that a chunk covers. -/
def Bare.source : Bare → Text
  | .text content => content
  | .start _ _ raw => raw
  | .stop _ raw => raw

@[simp] theorem source_bare (chunk : Chunk) : chunk.bare.source = chunk.source := by
  cases chunk <;> rfl

/-- A marker that is read where it stands is read the same everywhere else. -/
theorem ofMarker_elsewhere {settings : Settings} {file : String} {header raw : Text} {loc : Position}
    {marker : Chunk} (read : ofMarker settings file header raw loc = .ok marker) (file' : String)
    (elsewhere : Position) :
    ∃ marker', ofMarker settings file' header raw elsewhere = .ok marker' ∧ marker'.bare = marker.bare := by
  unfold ofMarker at read
  cases written : Header.tokenize header loc with
  | error fault => simp [written] at read
  | ok tokens =>
    obtain ⟨tokens', written', symbols⟩ := (Header.means_of_tokenize written).tokenize elsewhere
    cases parsed : Header.parse settings.actionNamespace tokens with
    | error fault => simp [written, parsed] at read
    | ok said =>
      obtain ⟨said', parsed', same⟩ := Header.parse_elsewhere parsed symbols
      simp only [written, parsed] at read
      simp only [ofMarker, written', parsed']
      cases said with
      | start name params =>
        cases read
        cases said' with
        | start name' params' =>
          simp only [Header.entries, Prod.mk.injEq, Option.some.injEq] at same
          exact ⟨_, rfl, by simp [bare, same]⟩
        | stop name' => simp [Header.entries] at same
      | stop name =>
        cases read
        cases said' with
        | start name' params' => simp [Header.entries] at same
        | stop name' =>
          simp only [Header.entries, Prod.mk.injEq, and_true] at same
          exact ⟨_, rfl, by simp [bare, same]⟩

end Chunk
end Regen
