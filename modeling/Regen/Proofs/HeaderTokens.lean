import Regen.Header.Grammar

/-! Which tokens a header's parameters and faults come from. The grammar never
makes up a position: the name of the action takes the first two or three tokens,
every parameter the next three, and a fault points to a token that is there. -/
namespace Regen

theorem bind_eq_ok_iff {ε α β : Type} {first : Except ε α} {next : α → Except ε β} {b : β} :
    (first >>= next) = .ok b ↔ ∃ a, first = .ok a ∧ next a = .ok b := by
  cases first with
  | error e => simp [bind, Except.bind]
  | ok a => simp [bind, Except.bind]

theorem bind_eq_error_iff {ε α β : Type} {first : Except ε α} {next : α → Except ε β} {e : ε} :
    (first >>= next) = .error e ↔
      first = .error e ∨ ∃ a, first = .ok a ∧ next a = .error e := by
  cases first with
  | error e => simp [bind, Except.bind]
  | ok a => simp [bind, Except.bind]

namespace Header

/-- The number of tokens that write the name of an action. -/
def nameWidth : List Symbol → Nat
  | .colon :: _ => 2
  | _ => 3

/-- A complaint about the end of the tokens or about one of them. -/
def AboutTokens (tokens : List Token) (fault : GrammarFault) : Prop :=
  (∃ what, fault = .endsBefore what) ∨ ∃ token ∈ tokens, fault = .unexpected token

theorem AboutTokens.of_suffix {tokens rest : List Token} {fault : GrammarFault}
    (about : AboutTokens rest fault) (suffix : rest <:+ tokens) : AboutTokens tokens fault := by
  rcases about with ends | ⟨token, member, same⟩
  · exact Or.inl ends
  · exact Or.inr ⟨token, suffix.mem member, same⟩

theorem about_first (token : Token) (rest : List Token) :
    AboutTokens (token :: rest) (.unexpected token) :=
  Or.inr ⟨token, List.mem_cons_self, rfl⟩

section Grammar
variable {tokens rest : List Token} {fault : GrammarFault}

theorem expectIdentifier_ok {word : String} (read : expectIdentifier tokens = .ok (word, rest)) :
    ∃ loc, tokens = ⟨.identifier word, loc⟩ :: rest := by
  cases tokens with
  | nil => cases read
  | cons token tokens =>
    obtain ⟨symbol, loc⟩ := token
    cases symbol <;> cases read
    exact ⟨loc, rfl⟩

theorem expectColon_ok (read : expectColon tokens = .ok rest) :
    ∃ loc, tokens = ⟨.colon, loc⟩ :: rest := by
  cases tokens with
  | nil => cases read
  | cons token tokens =>
    obtain ⟨symbol, loc⟩ := token
    cases symbol <;> cases read
    exact ⟨loc, rfl⟩

theorem about_of_expectIdentifier (failed : expectIdentifier tokens = .error fault) :
    AboutTokens tokens fault := by
  cases tokens with
  | nil =>
    cases failed
    exact Or.inl ⟨_, rfl⟩
  | cons token tokens =>
    obtain ⟨symbol, loc⟩ := token
    cases symbol <;> cases failed <;> exact about_first _ _

theorem about_of_expectColon (failed : expectColon tokens = .error fault) :
    AboutTokens tokens fault := by
  cases tokens with
  | nil =>
    cases failed
    exact Or.inl ⟨_, rfl⟩
  | cons token tokens =>
    obtain ⟨symbol, loc⟩ := token
    cases symbol <;> cases failed <;> exact about_first _ _

/-- The name takes the colon and the action, or the namespace before them too. -/
theorem parseName_ok {namespaceName : String} {name : ActionName}
    (read : parseName namespaceName tokens = .ok (name, rest)) :
    rest = tokens.drop (nameWidth (tokens.map Token.symbol)) := by
  cases tokens with
  | nil => cases read
  | cons token tokens =>
    obtain ⟨symbol, loc⟩ := token
    cases symbol with
    | colon =>
      obtain ⟨⟨action, after⟩, action', same⟩ := bind_eq_ok_iff.mp read
      cases same
      obtain ⟨loc', rfl⟩ := expectIdentifier_ok action'
      rfl
    | identifier word =>
      obtain ⟨afterColon, colon, more⟩ := bind_eq_ok_iff.mp read
      obtain ⟨⟨action, after⟩, action', same⟩ := bind_eq_ok_iff.mp more
      cases same
      obtain ⟨loc', rfl⟩ := expectColon_ok colon
      obtain ⟨loc'', rfl⟩ := expectIdentifier_ok action'
      rfl
    | _ => cases read

theorem about_of_parseName {namespaceName : String}
    (failed : parseName namespaceName tokens = .error fault) : AboutTokens tokens fault := by
  cases tokens with
  | nil =>
    cases failed
    exact Or.inl ⟨_, rfl⟩
  | cons token tokens =>
    obtain ⟨symbol, loc⟩ := token
    cases symbol with
    | colon =>
      rcases bind_eq_error_iff.mp failed with action | ⟨_, _, impossible⟩
      · exact (about_of_expectIdentifier action).of_suffix (List.suffix_cons ..)
      · cases impossible
    | identifier word =>
      rcases bind_eq_error_iff.mp failed with colon | ⟨afterColon, colon, more⟩
      · exact (about_of_expectColon colon).of_suffix (List.suffix_cons ..)
      obtain ⟨loc', rfl⟩ := expectColon_ok colon
      rcases bind_eq_error_iff.mp more with action | ⟨_, _, impossible⟩
      · exact (about_of_expectIdentifier action).of_suffix
          ((List.suffix_cons ..).trans (List.suffix_cons ..))
      · cases impossible
    | _ =>
      cases failed
      exact about_first _ _

/-- Every parameter is written by three tokens, the first of which is its key. -/
structure KeysAt (tokens : List Token) (params : List Parameter) : Prop where
  width : tokens.length = 3 * params.length
  keys : ∀ (i : Nat) (param : Parameter), params[i]? = some param →
    tokens[3 * i]? = some ⟨.identifier param.key, param.loc⟩

theorem keysAt_of_parseParams {params : List Parameter} (read : parseParams tokens = .ok params) :
    KeysAt tokens params := by
  fun_induction parseParams tokens generalizing params with
  | case1 =>
    cases read
    exact ⟨rfl, by simp⟩
  | case7 key colon value rest name literal _ _ identifier params' inner ih =>
    cases read
    obtain ⟨width, keys⟩ := ih inner
    refine ⟨by simp only [List.length_cons, width]; omega, ?_⟩
    intro i param found
    cases i with
    | zero =>
      cases found
      simp [← identifier]
    | succ i => exact keys i param found
  | _ => cases read

theorem about_of_parseParams (failed : parseParams tokens = .error fault) :
    AboutTokens tokens fault := by
  fun_induction parseParams tokens with
  | case1 => cases failed
  | case2 => cases failed; exact Or.inl ⟨_, rfl⟩
  | case4 => cases failed; exact Or.inl ⟨_, rfl⟩
  | case7 => cases failed
  | case8 key colon value rest name literal _ _ _ fault' inner ih =>
    cases failed
    have suffix : rest <:+ key :: colon :: value :: rest := ⟨[key, colon, value], rfl⟩
    exact (ih inner).of_suffix suffix
  | _ => cases failed; exact Or.inr ⟨_, by simp, rfl⟩

/-- The parameters of a block start are written after its name. -/
theorem keysAt_of_parse {namespaceName : String} {name : ActionName} {params : List Parameter}
    (read : parse namespaceName tokens = .ok (.start name params)) :
    KeysAt (tokens.drop (nameWidth (tokens.map Token.symbol))) params := by
  unfold parse at read
  split at read
  · rename_i rest
    obtain ⟨⟨name', after⟩, named, more⟩ := bind_eq_ok_iff.mp read
    obtain ⟨params', written, refused⟩ := bind_eq_ok_iff.mp more
    cases params' <;> cases refused
  · obtain ⟨⟨name', after⟩, named, more⟩ := bind_eq_ok_iff.mp read
    obtain ⟨params', written, same⟩ := bind_eq_ok_iff.mp more
    cases same
    exact parseName_ok named ▸ keysAt_of_parseParams written

/-- A fault of the grammar is about the tokens, or about the key of the first
parameter after the name of a block end. -/
theorem about_of_parse {namespaceName : String} (failed : parse namespaceName tokens = .error fault) :
    AboutTokens tokens fault ∨
      ∃ slash rest key loc, tokens = ⟨.slash, slash⟩ :: rest ∧
        rest[nameWidth (rest.map Token.symbol)]? = some ⟨.identifier key, loc⟩ ∧
        fault = .paramsOnEnd loc := by
  unfold parse at failed
  split at failed
  · rename_i slash rest
    have suffix : rest <:+ ⟨.slash, slash⟩ :: rest := List.suffix_cons ..
    rcases bind_eq_error_iff.mp failed with name | ⟨⟨name, after⟩, named, more⟩
    · exact Or.inl ((about_of_parseName name).of_suffix suffix)
    have after' := parseName_ok named
    rcases bind_eq_error_iff.mp more with params | ⟨params, written, refused⟩
    · exact Or.inl ((about_of_parseParams params).of_suffix
        ((after' ▸ List.drop_suffix _ rest).trans suffix))
    cases params with
    | nil => cases refused
    | cons param params =>
      cases refused
      have first := (keysAt_of_parseParams written).keys 0 param rfl
      rw [after', List.getElem?_drop] at first
      exact Or.inr ⟨slash, rest, param.key, param.loc, rfl, first, rfl⟩
  · rcases bind_eq_error_iff.mp failed with name | ⟨⟨name, after⟩, named, more⟩
    · exact Or.inl (about_of_parseName name)
    rcases bind_eq_error_iff.mp more with params | ⟨params, written, same⟩
    · exact Or.inl ((about_of_parseParams params).of_suffix
        (parseName_ok named ▸ List.drop_suffix ..))
    · cases same

end Grammar

end Header
end Regen
