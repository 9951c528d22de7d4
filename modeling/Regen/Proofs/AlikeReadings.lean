import Mathlib.Data.List.Forall2
import Regen.Proofs.HeaderLanguage
import Regen.Proofs.HeaderPrinting

/-! What a parse does not depend on. The parser looks at the symbols of tokens and
carries their places along: from tokens with the same symbols it reads the same, or
it stops for the same reason at the same token. -/
namespace Regen.Header

/-- Faults alike in what is missing, or about the two tokens of a pair. -/
inductive FaultAlike (pairs : List (Token × Token)) : GrammarFault → GrammarFault → Prop
  | unexpected {token token' : Token} : (token, token') ∈ pairs →
    FaultAlike pairs (.unexpected token) (.unexpected token')
  | endsBefore (what : Expectation) : FaultAlike pairs (.endsBefore what) (.endsBefore what)
  | paramsOnEnd {token token' : Token} : (token, token') ∈ pairs →
    FaultAlike pairs (.paramsOnEnd token.loc) (.paramsOnEnd token'.loc)

/-- Parameters with one key and value, where the two tokens of a pair stand. -/
def ParamAlike (pairs : List (Token × Token)) (param param' : Parameter) : Prop :=
  param.entry = param'.entry ∧
    ∃ pair ∈ pairs, param.loc = pair.1.loc ∧ param'.loc = pair.2.loc

/-- Headers that say the same. -/
inductive HeaderAlike (pairs : List (Token × Token)) : Header → Header → Prop
  | start (name : ActionName) {params params' : List Parameter} :
    List.Forall₂ (ParamAlike pairs) params params' →
    HeaderAlike pairs (.start name params) (.start name params')
  | stop (name : ActionName) : HeaderAlike pairs (.stop name) (.stop name)

/-- Both readings fail alike or come to related results. -/
inductive ReadAlike {α : Type} (pairs : List (Token × Token)) (related : α → α → Prop) :
    Except GrammarFault α → Except GrammarFault α → Prop
  | ok {a a' : α} : related a a' → ReadAlike pairs related (.ok a) (.ok a')
  | error {fault fault' : GrammarFault} : FaultAlike pairs fault fault' →
    ReadAlike pairs related (.error fault) (.error fault')

/-- Tokens with the same symbols, member by member among the pairs. -/
inductive Paired (pairs : List (Token × Token)) : List Token → List Token → Prop
  | nil : Paired pairs [] []
  | cons {symbol : Symbol} {loc loc' : Position} {more more' : List Token} :
    (⟨symbol, loc⟩, ⟨symbol, loc'⟩) ∈ pairs → Paired pairs more more' →
    Paired pairs (⟨symbol, loc⟩ :: more) (⟨symbol, loc'⟩ :: more')

/-- The first token as a value, and the tokens after it. -/
def expectValue : List Token → Except GrammarFault (Literal × List Token)
  | [] => .error (.endsBefore .value)
  | token :: rest =>
    match token.symbol.literal? with
    | some literal => .ok (literal, rest)
    | none => .error (.unexpected token)

/-- The first parameter, and the tokens after it. -/
def parseParam : List Token → Except GrammarFault (Parameter × List Token)
  | [] => .error (.endsBefore .identifier)
  | key :: rest => do
    let (word, rest) ← expectIdentifier (key :: rest)
    let rest ← expectColon rest
    let (literal, rest) ← expectValue rest
    return (⟨word, literal, key.loc⟩, rest)

theorem expectValue_ok {tokens rest : List Token} {literal : Literal}
    (read : expectValue tokens = .ok (literal, rest)) : ∃ value, tokens = value :: rest := by
  cases tokens with
  | nil => cases read
  | cons value tokens =>
    unfold expectValue at read
    dsimp only at read
    cases valued : value.symbol.literal? <;> rw [valued] at read <;> cases read
    exact ⟨value, rfl⟩

/-- Parameters are read one after another. -/
theorem parseParams_cons (key : Token) (rest : List Token) : parseParams (key :: rest) = (do
    let (param, after) ← parseParam (key :: rest)
    let params ← parseParams after
    return param :: params) := by
  obtain ⟨symbol, loc⟩ := key
  cases symbol with
  | identifier word =>
    cases rest with
    | nil => rfl
    | cons colon rest =>
      obtain ⟨symbol, loc'⟩ := colon
      cases symbol with
      | colon =>
        cases rest with
        | nil => rfl
        | cons value rest =>
          cases valued : value.symbol.literal? with
          | none =>
            simp [parseParams, parseParam, expectIdentifier, expectColon, expectValue, valued, bind,
              Except.bind]
          | some literal =>
            cases following : parseParams rest <;>
              simp [parseParams, parseParam, expectIdentifier, expectColon, expectValue, valued,
                following, bind, Except.bind, pure, Except.pure]
      | _ => cases rest <;> rfl
  | _ =>
    cases rest with
    | nil => rfl
    | cons colon rest => cases rest <;> rfl

theorem parseParam_shorter {tokens rest : List Token} {param : Parameter}
    (read : parseParam tokens = .ok (param, rest)) : rest.length < tokens.length := by
  cases tokens with
  | nil => cases read
  | cons key tokens =>
    obtain ⟨⟨word, afterKey⟩, named, read⟩ := bind_eq_ok_iff.mp read
    obtain ⟨afterColon, colon, read⟩ := bind_eq_ok_iff.mp read
    obtain ⟨⟨literal, afterValue⟩, valued, same⟩ := bind_eq_ok_iff.mp read
    cases same
    obtain ⟨_, same⟩ := expectIdentifier_ok named
    obtain ⟨_, rfl⟩ := expectColon_ok colon
    obtain ⟨value, rfl⟩ := expectValue_ok valued
    rw [same]
    simp only [List.length_cons]
    omega

section Readings
variable {α β : Type} {pairs : List (Token × Token)} {tokens tokens' : List Token}

theorem ReadAlike.bind {related : α → α → Prop} {related' : β → β → Prop}
    {first first' : Except GrammarFault α} {next next' : α → Except GrammarFault β}
    (alike : ReadAlike pairs related first first')
    (step : ∀ a a', first = .ok a → related a a' → ReadAlike pairs related' (next a) (next' a')) :
    ReadAlike pairs related' (first >>= next) (first' >>= next') := by
  cases alike with
  | ok same => exact step _ _ rfl same
  | error faults => exact .error faults

theorem expectIdentifier_alike (paired : Paired pairs tokens tokens') :
    ReadAlike pairs (fun read read' => read.1 = read'.1 ∧ Paired pairs read.2 read'.2)
      (expectIdentifier tokens) (expectIdentifier tokens') := by
  cases paired with
  | nil => exact .error (.endsBefore _)
  | @cons symbol _ _ _ _ member following =>
    cases symbol with
    | identifier word => exact .ok ⟨rfl, following⟩
    | _ => exact .error (.unexpected member)

theorem expectColon_alike (paired : Paired pairs tokens tokens') :
    ReadAlike pairs (Paired pairs) (expectColon tokens) (expectColon tokens') := by
  cases paired with
  | nil => exact .error (.endsBefore _)
  | @cons symbol _ _ _ _ member following =>
    cases symbol with
    | colon => exact .ok following
    | _ => exact .error (.unexpected member)

theorem expectValue_alike (paired : Paired pairs tokens tokens') :
    ReadAlike pairs (fun read read' => read.1 = read'.1 ∧ Paired pairs read.2 read'.2)
      (expectValue tokens) (expectValue tokens') := by
  cases paired with
  | nil => exact .error (.endsBefore _)
  | @cons symbol _ _ _ _ member following =>
    unfold expectValue
    dsimp only
    cases symbol.literal? with
    | some literal => exact .ok ⟨rfl, following⟩
    | none => exact .error (.unexpected member)

theorem parseName_alike (defaultNamespace : String) (paired : Paired pairs tokens tokens') :
    ReadAlike pairs (fun read read' => read.1 = read'.1 ∧ Paired pairs read.2 read'.2)
      (parseName defaultNamespace tokens) (parseName defaultNamespace tokens') := by
  cases paired with
  | nil => exact .error (.endsBefore _)
  | @cons symbol _ _ _ _ member following =>
    cases symbol with
    | colon =>
      refine (expectIdentifier_alike following).bind ?_
      rintro ⟨action, more⟩ ⟨_, more'⟩ - ⟨rfl, following⟩
      exact .ok ⟨rfl, following⟩
    | identifier word =>
      refine (expectColon_alike following).bind fun more more' _ following => ?_
      refine (expectIdentifier_alike following).bind ?_
      rintro ⟨action, more⟩ ⟨_, more'⟩ - ⟨rfl, following⟩
      exact .ok ⟨rfl, following⟩
    | _ => exact .error (.unexpected member)

theorem parseParam_alike (paired : Paired pairs tokens tokens') :
    ReadAlike pairs (fun read read' => ParamAlike pairs read.1 read'.1 ∧ Paired pairs read.2 read'.2)
      (parseParam tokens) (parseParam tokens') := by
  cases paired with
  | nil => exact .error (.endsBefore _)
  | cons key following =>
    refine (expectIdentifier_alike (.cons key following)).bind ?_
    rintro ⟨word, more⟩ ⟨_, more'⟩ - ⟨rfl, following⟩
    refine (expectColon_alike following).bind fun more more' _ following => ?_
    refine (expectValue_alike following).bind ?_
    rintro ⟨literal, more⟩ ⟨_, more'⟩ - ⟨rfl, following⟩
    exact .ok ⟨⟨rfl, _, key, rfl, rfl⟩, following⟩

theorem parseParams_alike (paired : Paired pairs tokens tokens') :
    ReadAlike pairs (List.Forall₂ (ParamAlike pairs)) (parseParams tokens) (parseParams tokens') := by
  induction width : tokens.length using Nat.strongRecOn generalizing tokens tokens' with
  | ind width' ih =>
  subst width
  cases paired with
  | nil => exact .ok .nil
  | cons key following =>
    rw [parseParams_cons, parseParams_cons]
    refine (parseParam_alike (.cons key following)).bind ?_
    rintro ⟨param, more⟩ ⟨param', more'⟩ read ⟨alike, following⟩
    refine (ih _ (parseParam_shorter read) following rfl).bind fun params params' _ others => ?_
    exact .ok (.cons alike others)

/-- Tokens with the same symbols are pairs, one after another. -/
theorem paired_of_symbols (same : tokens'.map Token.symbol = tokens.map Token.symbol)
    (part : tokens.zip tokens' ⊆ pairs) : Paired pairs tokens tokens' := by
  induction tokens generalizing tokens' with
  | nil =>
    obtain rfl := List.map_eq_nil_iff.mp same
    exact .nil
  | cons token tokens ih =>
    obtain ⟨⟨_, loc'⟩, more', rfl, rfl, alike⟩ := List.map_eq_cons_iff.mp same
    rw [List.zip_cons_cons] at part
    exact .cons (part List.mem_cons_self) (ih alike (List.subset_of_cons_subset part))

/-- The parser reads the same from tokens in other places. -/
theorem parse_alike (defaultNamespace : String) (paired : Paired pairs tokens tokens') :
    ReadAlike pairs (HeaderAlike pairs) (parse defaultNamespace tokens)
      (parse defaultNamespace tokens') := by
  have body {tokens tokens' : List Token} (paired : Paired pairs tokens tokens') :
      ReadAlike pairs (fun read read' => read.1 = read'.1 ∧
        List.Forall₂ (ParamAlike pairs) read.2 read'.2) (parseBody defaultNamespace tokens)
          (parseBody defaultNamespace tokens') := by
    refine (parseName_alike defaultNamespace paired).bind ?_
    rintro ⟨name, more⟩ ⟨_, more'⟩ - ⟨rfl, following⟩
    refine (parseParams_alike following).bind fun params params' _ alike => ?_
    exact .ok ⟨rfl, alike⟩
  rcases slash_or_other tokens with ⟨loc, rest, rfl⟩ | other
  · cases paired with
    | cons _ following =>
      rw [parse_slash, parse_slash]
      refine (body following).bind ?_
      rintro ⟨name, params⟩ ⟨_, params'⟩ - ⟨rfl, alike⟩
      cases alike with
      | nil => exact .ok (.stop name)
      | cons first _ =>
        obtain ⟨-, pair, member, place, place'⟩ := first
        rw [refuseParams, refuseParams, place, place']
        exact .error (.paramsOnEnd member)
  · have other' : ∀ loc rest, tokens' ≠ ⟨.slash, loc⟩ :: rest := by
      rintro loc rest rfl
      cases paired
      exact other _ _ rfl
    rw [parse_other other, parse_other other']
    refine (body paired).bind ?_
    rintro ⟨name, params⟩ ⟨_, params'⟩ - ⟨rfl, alike⟩
    exact .ok (.start name alike)

end Readings

end Regen.Header
