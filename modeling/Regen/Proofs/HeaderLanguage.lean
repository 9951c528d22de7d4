import Regen.Proofs.HeaderTokens

/-! The language of headers. A grammar says which tokens write which header, and
says it without the parser; the parser accepts these tokens and no others, and
reads from them what the grammar says. Of any others it blames the first token
with which no header can go on, or the end where there is none. -/
namespace Regen.Header

/-- A symbol writes a value; a bare identifier is a text. -/
inductive WritesValue : Symbol → Literal → Prop
  | text (s : String) : WritesValue (.text s) (.text s)
  | integer (n : Nat) : WritesValue (.integer n) (.integer n)
  | float (x : Binary64) : WritesValue (.float x) (.float x)
  | bool (b : Bool) : WritesValue (.bool b) (.bool b)
  | identifier (name : String) : WritesValue (.identifier name) (.text name)
  | variable (name : String) : WritesValue (.variable name) (.variable name)

/-- Tokens write parameters: `key:value`, any number of times. -/
inductive WritesParams : List Token → List Parameter → Prop
  | nil : WritesParams [] []
  | cons {key : String} {loc loc' : Position} {value : Token} {literal : Literal}
      {more : List Token} {params : List Parameter} :
    WritesValue value.symbol literal → WritesParams more params →
    WritesParams (⟨.identifier key, loc⟩ :: ⟨.colon, loc'⟩ :: value :: more)
      (⟨key, literal, loc⟩ :: params)

/-- Tokens write `:action` or `namespace:action`, and parameters after it. -/
inductive WritesBody (defaultNamespace : String) : List Token → ActionName → List Parameter → Prop
  | short {action : String} {loc loc' : Position} {more : List Token} {params : List Parameter} :
    WritesParams more params →
    WritesBody defaultNamespace (⟨.colon, loc⟩ :: ⟨.identifier action, loc'⟩ :: more)
      ⟨defaultNamespace, action⟩ params
  | full {namespaceName action : String} {loc loc' loc'' : Position} {more : List Token}
      {params : List Parameter} :
    WritesParams more params →
    WritesBody defaultNamespace
      (⟨.identifier namespaceName, loc⟩ :: ⟨.colon, loc'⟩ :: ⟨.identifier action, loc''⟩ :: more)
      ⟨namespaceName, action⟩ params

/-- Tokens write a header: after a slash there is a name only. -/
inductive Writes (defaultNamespace : String) : List Token → Header → Prop
  | start {tokens : List Token} {name : ActionName} {params : List Parameter} :
    WritesBody defaultNamespace tokens name params →
    Writes defaultNamespace tokens (.start name params)
  | stop {loc : Position} {tokens : List Token} {name : ActionName} :
    WritesBody defaultNamespace tokens name [] →
    Writes defaultNamespace (⟨.slash, loc⟩ :: tokens) (.stop name)

/-- Tokens would write a header if the block end they write took parameters. -/
inductive WritesLoadedStop (defaultNamespace : String) : List Token → Parameter → Prop
  | intro {loc : Position} {tokens : List Token} {name : ActionName} {first : Parameter}
      {more : List Parameter} :
    WritesBody defaultNamespace tokens name (first :: more) →
    WritesLoadedStop defaultNamespace (⟨.slash, loc⟩ :: tokens) first

/-- Tokens are a header, but for parameters after a slash. -/
def WellFormed (defaultNamespace : String) (tokens : List Token) : Prop :=
  (∃ header, Writes defaultNamespace tokens header) ∨
    ∃ first, WritesLoadedStop defaultNamespace tokens first

/-- Tokens can be continued to a member of a language. -/
def Viable (language : List Token → Prop) (tokens : List Token) : Prop :=
  ∃ more, language (tokens ++ more)

/-- A token is the first with which no continuation is in a language. -/
def FirstImpossible (language : List Token → Prop) (tokens : List Token) (token : Token) : Prop :=
  ∃ before after, tokens = before ++ token :: after ∧ Viable language before ∧
    ¬Viable language (before ++ [token])

section Language
variable {language language' : List Token → Prop} {tokens front : List Token} {token other : Token}

theorem Viable.of_mem (member : language tokens) : Viable language tokens :=
  ⟨[], by rwa [List.append_nil]⟩

theorem Viable.of_append {more : List Token} (viable : Viable language (tokens ++ more)) :
    Viable language tokens := by
  obtain ⟨rest, member⟩ := viable
  exact ⟨more ++ rest, by rwa [List.append_assoc] at member⟩

/-- Where all goes on well there is no first impossible token. -/
theorem FirstImpossible.not_viable (impossible : FirstImpossible language tokens token) :
    ¬Viable language tokens := by
  obtain ⟨before, after, rfl, -, stuck⟩ := impossible
  intro viable
  rw [← List.singleton_append, ← List.append_assoc] at viable
  exact stuck viable.of_append

/-- Only one token can be the first. -/
theorem FirstImpossible.unique (impossible : FirstImpossible language tokens token)
    (impossible' : FirstImpossible language tokens other) : token = other := by
  obtain ⟨before, after, rfl, viable, stuck⟩ := impossible
  obtain ⟨before', after', same, viable', stuck'⟩ := impossible'
  -- Of two places the earlier one is stuck, and so is all that goes beyond it.
  rcases List.append_eq_append_iff.mp same with ⟨between, rfl, ends⟩ | ⟨between, rfl, ends⟩
  · cases between with
    | nil => exact (List.cons.inj ends).1
    | cons first between =>
      obtain ⟨rfl, -⟩ := List.cons.inj ends
      rw [← List.singleton_append, ← List.append_assoc] at viable'
      exact absurd viable'.of_append stuck
  · cases between with
    | nil => exact (List.cons.inj ends).1.symm
    | cons first between =>
      obtain ⟨rfl, -⟩ := List.cons.inj ends
      rw [← List.singleton_append, ← List.append_assoc] at viable
      exact absurd viable.of_append stuck'

/-- What may follow some tokens is a language of its own. -/
theorem viable_after (derives : ∀ rest, language' (front ++ rest) ↔ language rest) :
    Viable language' (front ++ tokens) ↔ Viable language tokens := by
  simp only [Viable, List.append_assoc, derives]

theorem FirstImpossible.after (derives : ∀ rest, language' (front ++ rest) ↔ language rest)
    (impossible : FirstImpossible language tokens token) :
    FirstImpossible language' (front ++ tokens) token := by
  obtain ⟨before, rest, rfl, viable, stuck⟩ := impossible
  refine ⟨front ++ before, rest, by rw [List.append_assoc], (viable_after derives).mpr viable, ?_⟩
  rw [List.append_assoc, viable_after derives]
  exact stuck

end Language

/-- What a fault has to say of tokens that are not in a language: which of them is
the first impossible one, or that they end too early. -/
inductive Blames (language : List Token → Prop) (tokens : List Token) : GrammarFault → Prop
  | unexpected {token : Token} : FirstImpossible language tokens token →
    Blames language tokens (.unexpected token)
  | endsBefore {what : Expectation} : Viable language tokens → ¬language tokens →
    Blames language tokens (.endsBefore what)

theorem Blames.after {language language' : List Token → Prop} {tokens front : List Token}
    {fault : GrammarFault} (derives : ∀ rest, language' (front ++ rest) ↔ language rest)
    (blames : Blames language tokens fault) : Blames language' (front ++ tokens) fault := by
  cases blames with
  | unexpected impossible => exact .unexpected (impossible.after derives)
  | endsBefore viable outside =>
    exact .endsBefore ((viable_after derives).mpr viable) (mt (derives tokens).mp outside)

/-- Tokens that write parameters. -/
def ParamList (tokens : List Token) : Prop := ∃ params, WritesParams tokens params

/-- Tokens that write a name and parameters. -/
def Body (defaultNamespace : String) (tokens : List Token) : Prop :=
  ∃ name params, WritesBody defaultNamespace tokens name params

section Values
variable {symbol : Symbol} {literal : Literal}

theorem literal?_eq_some_iff : symbol.literal? = some literal ↔ WritesValue symbol literal := by
  constructor
  · intro meant
    cases symbol <;> cases meant <;> constructor
  · rintro ⟨⟩ <;> rfl

theorem not_writesValue (none : symbol.literal? = none) : ¬WritesValue symbol literal := by
  rw [← literal?_eq_some_iff, none]
  nofun

end Values

section Params
variable {key colon value token : Token} {rest tokens : List Token} {params : List Parameter}
  {fault : GrammarFault} {word : String} {literal : Literal}

theorem paramList_nil : ParamList [] := ⟨[], .nil⟩

/-- After a parameter come parameters. -/
theorem paramList_cons (named : key.symbol = .identifier word) (colon' : colon.symbol = .colon)
    (valued : value.symbol.literal? = some literal) (rest : List Token) :
    ParamList ([key, colon, value] ++ rest) ↔ ParamList rest := by
  obtain ⟨symbol, loc⟩ := key
  obtain ⟨symbol', loc'⟩ := colon
  obtain rfl : symbol = .identifier word := named
  obtain rfl : symbol' = .colon := colon'
  constructor
  · rintro ⟨params, written⟩
    cases written with
    | cons _ written => exact ⟨_, written⟩
  · rintro ⟨params, written⟩
    exact ⟨_, .cons (literal?_eq_some_iff.mp valued) written⟩

/-- A key is an identifier. -/
theorem not_viable_key (other : ∀ word, key.symbol ≠ .identifier word) : ¬Viable ParamList [key] := by
  rintro ⟨more, params, written⟩
  cases written
  exact other _ rfl

theorem viable_key (named : key.symbol = .identifier word) : Viable ParamList [key] := by
  obtain ⟨symbol, loc⟩ := key
  obtain rfl : symbol = .identifier word := named
  exact ⟨[⟨.colon, loc⟩, ⟨.bool true, loc⟩], _, .cons (.bool true) .nil⟩

theorem not_viable_colon (other : colon.symbol ≠ .colon) : ¬Viable ParamList [key, colon] := by
  rintro ⟨more, params, written⟩
  cases written
  exact other rfl

theorem viable_colon (named : key.symbol = .identifier word) (colon' : colon.symbol = .colon) :
    Viable ParamList [key, colon] := by
  obtain ⟨symbol, loc⟩ := key
  obtain ⟨symbol', loc'⟩ := colon
  obtain rfl : symbol = .identifier word := named
  obtain rfl : symbol' = .colon := colon'
  exact ⟨[⟨.bool true, loc⟩], _, .cons (.bool true) .nil⟩

theorem not_viable_value (none : value.symbol.literal? = none) :
    ¬Viable ParamList [key, colon, value] := by
  rintro ⟨more, params, written⟩
  cases written with
  | cons valued _ => exact not_writesValue none valued

theorem firstImpossible_key (other : ∀ word, key.symbol ≠ .identifier word) (rest : List Token) :
    FirstImpossible ParamList (key :: rest) key :=
  ⟨[], rest, rfl, .of_mem paramList_nil, not_viable_key other⟩

theorem firstImpossible_colon (named : key.symbol = .identifier word) (other : colon.symbol ≠ .colon)
    (rest : List Token) : FirstImpossible ParamList (key :: colon :: rest) colon :=
  ⟨[key], rest, rfl, viable_key named, not_viable_colon other⟩

/-- The parser accepts what the grammar says are parameters. -/
theorem parseParams_eq_ok_iff : parseParams tokens = .ok params ↔ WritesParams tokens params := by
  constructor
  · intro read
    fun_induction parseParams tokens generalizing params with
    | case1 =>
      cases read
      exact .nil
    | case7 key colon value rest name literal valued colon' named params' _ ih =>
      cases read
      obtain ⟨symbol, loc⟩ := key
      obtain ⟨symbol', loc'⟩ := colon
      obtain rfl : symbol = .identifier name := named
      obtain rfl : symbol' = .colon := colon'
      exact .cons (literal?_eq_some_iff.mp valued) (ih ‹_›)
    | _ => cases read
  · intro written
    induction written with
    | nil => rfl
    | cons valued _ ih => simp [parseParams, literal?_eq_some_iff.mpr valued, ih]

theorem blames_of_parseParams (failed : parseParams tokens = .error fault) :
    Blames ParamList tokens fault := by
  fun_induction parseParams tokens with
  | case1 => cases failed
  | case2 key word named =>
    cases failed
    exact .endsBefore (viable_key named) (by rintro ⟨_, ⟨⟩⟩)
  | case3 key other =>
    cases failed
    exact .unexpected (firstImpossible_key other [])
  | case4 key colon word colon' named =>
    cases failed
    exact .endsBefore (viable_colon named colon') (by rintro ⟨_, ⟨⟩⟩)
  | case5 key colon word named other =>
    cases failed
    exact .unexpected (firstImpossible_colon named other [])
  | case6 key colon other =>
    cases failed
    exact .unexpected (firstImpossible_key other [colon])
  | case7 => cases failed
  | case8 key colon value rest word literal valued colon' named fault' inner ih =>
    cases failed
    exact (ih inner).after (paramList_cons named colon' valued)
  | case9 key colon value rest word valued colon' named =>
    cases failed
    exact .unexpected ⟨[key, colon], rest, rfl, viable_colon named colon', not_viable_value valued⟩
  | case10 key colon value rest word named other pending =>
    cases failed
    have notColon : colon.symbol ≠ .colon := by
      intro colon'
      cases valued : value.symbol.literal? with
      | none => exact pending colon' valued
      | some literal => exact other literal colon' valued
    exact .unexpected (firstImpossible_colon named notColon (value :: rest))
  | case11 key colon value rest other =>
    cases failed
    exact .unexpected (firstImpossible_key other (colon :: value :: rest))

end Params

/-- What names the action of a header, and the parameters after it. -/
def parseBody (defaultNamespace : String) (tokens : List Token) :
    Except GrammarFault (ActionName × List Parameter) := do
  let (name, rest) ← parseName defaultNamespace tokens
  let params ← parseParams rest
  return (name, params)

/-- Tokens that write an action and parameters. -/
def ActionBody (tokens : List Token) : Prop :=
  ∃ word loc rest, tokens = ⟨.identifier word, loc⟩ :: rest ∧ ParamList rest

section Bodies
variable {defaultNamespace word word' : String} {loc loc' loc'' : Position} {token : Token}
  {rest tokens : List Token} {name : ActionName} {params : List Parameter} {fault : GrammarFault}

theorem actionBody_cons (rest : List Token) :
    ActionBody ([⟨.identifier word, loc⟩] ++ rest) ↔ ParamList rest := by
  constructor
  · rintro ⟨_, _, _, same, written⟩
    cases same
    exact written
  · exact fun written => ⟨_, _, rest, rfl, written⟩

/-- After a colon comes the action. -/
theorem body_colon (rest : List Token) :
    Body defaultNamespace ([⟨.colon, loc⟩] ++ rest) ↔ ActionBody rest := by
  constructor
  · rintro ⟨name, params, ⟨written⟩⟩
    exact ⟨_, _, _, rfl, params, written⟩
  · rintro ⟨word, loc', rest, rfl, params, written⟩
    exact ⟨_, params, .short written⟩

/-- After a namespace and a colon comes the action. -/
theorem body_namespace (rest : List Token) :
    Body defaultNamespace ([⟨.identifier word, loc⟩, ⟨.colon, loc'⟩] ++ rest) ↔ ActionBody rest := by
  constructor
  · rintro ⟨name, params, ⟨⟩ | ⟨written⟩⟩
    exact ⟨_, _, _, rfl, params, written⟩
  · rintro ⟨word, loc'', rest, rfl, params, written⟩
    exact ⟨_, params, .full written⟩

theorem body_short (rest : List Token) :
    Body defaultNamespace ([⟨.colon, loc⟩, ⟨.identifier word, loc'⟩] ++ rest) ↔ ParamList rest :=
  (body_colon _).trans (actionBody_cons rest)

theorem body_full (rest : List Token) : Body defaultNamespace
    ([⟨.identifier word, loc⟩, ⟨.colon, loc'⟩, ⟨.identifier word', loc''⟩] ++ rest) ↔
      ParamList rest :=
  (body_namespace _).trans (actionBody_cons rest)

theorem viable_actionBody_nil : Viable ActionBody [] :=
  ⟨[⟨.identifier "", Position.start⟩], (actionBody_cons []).mpr paramList_nil⟩

theorem viable_namespace : Viable (Body defaultNamespace) [⟨.identifier word, loc⟩] := by
  have withColon : Viable (Body defaultNamespace) ([⟨.identifier word, loc⟩] ++ [⟨.colon, loc⟩]) :=
    (viable_after body_namespace).mpr viable_actionBody_nil
  exact withColon.of_append

theorem viable_body_nil : Viable (Body defaultNamespace) [] := by
  have namespaced : Viable (Body defaultNamespace) ([] ++ [⟨.identifier "", .start⟩]) :=
    viable_namespace
  exact namespaced.of_append

theorem blames_of_expectIdentifier (failed : expectIdentifier tokens = .error fault) :
    Blames ActionBody tokens fault := by
  cases tokens with
  | nil =>
    cases failed
    exact .endsBefore viable_actionBody_nil (by rintro ⟨_, _, _, ⟨⟩, _⟩)
  | cons token rest =>
    have stuck (other : ∀ word, token.symbol ≠ .identifier word) : ¬Viable ActionBody [token] := by
      rintro ⟨more, word, loc, _, same, _⟩
      cases same
      exact other _ rfl
    obtain ⟨symbol, loc⟩ := token
    cases symbol <;> cases failed <;>
      exact .unexpected ⟨[], rest, rfl, viable_actionBody_nil, stuck nofun⟩

/-- A namespace can be followed by a colon only. -/
theorem not_viable_namespace (other : token.symbol ≠ .colon) :
    ¬Viable (Body defaultNamespace) [⟨.identifier word, loc⟩, token] := by
  rintro ⟨more, name, params, ⟨⟩ | _⟩
  exact other rfl

/-- A name begins with a colon or a namespace. -/
theorem not_viable_first (notColon : token.symbol ≠ .colon)
    (notIdentifier : ∀ word, token.symbol ≠ .identifier word) :
    ¬Viable (Body defaultNamespace) [token] := by
  rintro ⟨more, name, params, _ | _⟩
  · exact notColon rfl
  · exact notIdentifier _ rfl

theorem blames_of_parseName (failed : parseName defaultNamespace tokens = .error fault) :
    Blames (Body defaultNamespace) tokens fault := by
  cases tokens with
  | nil =>
    cases failed
    exact .endsBefore viable_body_nil (by rintro ⟨_, _, ⟨⟩⟩)
  | cons token tokens =>
    obtain ⟨symbol, loc⟩ := token
    cases symbol with
    | colon =>
      rcases bind_eq_error_iff.mp failed with action | ⟨_, _, impossible⟩
      · exact (blames_of_expectIdentifier action).after body_colon
      · cases impossible
    | identifier word =>
      rcases bind_eq_error_iff.mp failed with colon | ⟨afterColon, colon, more⟩
      · cases tokens with
        | nil =>
          cases colon
          exact .endsBefore viable_namespace (by rintro ⟨_, _, ⟨⟩⟩)
        | cons token rest =>
          obtain ⟨symbol, loc'⟩ := token
          cases symbol <;> cases colon <;>
            exact .unexpected ⟨[_], rest, rfl, viable_namespace, not_viable_namespace nofun⟩
      obtain ⟨loc', rfl⟩ := expectColon_ok colon
      rcases bind_eq_error_iff.mp more with action | ⟨_, _, impossible⟩
      · exact (blames_of_expectIdentifier action).after body_namespace
      · cases impossible
    | _ =>
      cases failed
      exact .unexpected ⟨[], tokens, rfl, viable_body_nil, not_viable_first nofun nofun⟩

/-- Whose name is read, and what is left of the tokens. -/
theorem parseName_eq_ok_iff : parseName defaultNamespace tokens = .ok (name, rest) ↔
    (∃ loc loc' word, tokens = [⟨.colon, loc⟩, ⟨.identifier word, loc'⟩] ++ rest ∧
      name = ⟨defaultNamespace, word⟩) ∨
    ∃ loc loc' loc'' word word', name = ⟨word, word'⟩ ∧
      tokens = [⟨.identifier word, loc⟩, ⟨.colon, loc'⟩, ⟨.identifier word', loc''⟩] ++ rest := by
  constructor
  · intro named
    cases tokens with
    | nil => cases named
    | cons token tokens =>
      obtain ⟨symbol, loc⟩ := token
      cases symbol with
      | colon =>
        obtain ⟨⟨word, after⟩, action, same⟩ := bind_eq_ok_iff.mp named
        cases same
        obtain ⟨loc', rfl⟩ := expectIdentifier_ok action
        exact .inl ⟨loc, loc', word, rfl, rfl⟩
      | identifier word =>
        obtain ⟨afterColon, colon, more⟩ := bind_eq_ok_iff.mp named
        obtain ⟨⟨word', after⟩, action, same⟩ := bind_eq_ok_iff.mp more
        cases same
        obtain ⟨loc', rfl⟩ := expectColon_ok colon
        obtain ⟨loc'', rfl⟩ := expectIdentifier_ok action
        exact .inr ⟨loc, loc', loc'', word, word', rfl, rfl⟩
      | _ => cases named
  · rintro (⟨loc, loc', word, rfl, rfl⟩ | ⟨loc, loc', loc'', word, word', rfl, rfl⟩) <;> rfl

theorem parseBody_eq_ok_iff : parseBody defaultNamespace tokens = .ok (name, params) ↔
    WritesBody defaultNamespace tokens name params := by
  have stages : parseBody defaultNamespace tokens = .ok (name, params) ↔
      ∃ rest, parseName defaultNamespace tokens = .ok (name, rest) ∧ WritesParams rest params := by
    simp only [parseBody, bind_eq_ok_iff, parseParams_eq_ok_iff]
    constructor
    · rintro ⟨⟨name', rest⟩, named, params', written, ⟨⟩⟩
      exact ⟨rest, named, written⟩
    · rintro ⟨rest, named, written⟩
      exact ⟨⟨name, rest⟩, named, params, written, rfl⟩
  rw [stages]
  simp only [parseName_eq_ok_iff]
  constructor
  · rintro ⟨rest, ⟨loc, loc', word, rfl, rfl⟩ | ⟨loc, loc', loc'', word, word', rfl, rfl⟩, written⟩
    · exact .short written
    · exact .full written
  · rintro (written | written)
    · exact ⟨_, .inl ⟨_, _, _, rfl, rfl⟩, written⟩
    · exact ⟨_, .inr ⟨_, _, _, _, _, rfl, rfl⟩, written⟩

theorem blames_of_parseBody (failed : parseBody defaultNamespace tokens = .error fault) :
    Blames (Body defaultNamespace) tokens fault := by
  rcases bind_eq_error_iff.mp failed with unnamed | ⟨⟨name, rest⟩, named, more⟩
  · exact blames_of_parseName unnamed
  rcases bind_eq_error_iff.mp more with params | ⟨_, _, impossible⟩
  · rcases parseName_eq_ok_iff.mp named with
      ⟨loc, loc', word, rfl, -⟩ | ⟨loc, loc', loc'', word, word', -, rfl⟩
    · exact (blames_of_parseParams params).after body_short
    · exact (blames_of_parseParams params).after body_full
  · cases impossible

end Bodies

section Headers
variable {defaultNamespace : String} {loc : Position} {token : Token} {rest tokens : List Token}
  {fault : GrammarFault} {header : Header}

theorem parse_slash : parse defaultNamespace (⟨.slash, loc⟩ :: rest) =
    (parseBody defaultNamespace rest >>= fun body => refuseParams body.1 body.2) := by
  simp only [parse, parseBody, bind_assoc, pure_bind]

theorem parse_other (other : ∀ loc rest, tokens ≠ ⟨.slash, loc⟩ :: rest) :
    parse defaultNamespace tokens =
      (parseBody defaultNamespace tokens >>= fun body => .ok (.start body.1 body.2)) := by
  rw [parse]
  · simp only [parseBody, bind_assoc, pure_bind]
    rfl
  · exact other

/-- Tokens begin with a slash or they do not. -/
theorem slash_or_other (tokens : List Token) :
    (∃ loc rest, tokens = ⟨.slash, loc⟩ :: rest) ∨ ∀ loc rest, tokens ≠ ⟨.slash, loc⟩ :: rest := by
  simp only [ne_eq, ← not_exists]
  exact Classical.em _

/-- After a slash come a name and parameters, which may be too many. -/
theorem wellFormed_slash (rest : List Token) :
    WellFormed defaultNamespace ([⟨.slash, loc⟩] ++ rest) ↔ Body defaultNamespace rest := by
  constructor
  · rintro (⟨_, written⟩ | ⟨_, ⟨written⟩⟩)
    · cases written with
      | start written => cases written
      | stop written => exact ⟨_, _, written⟩
    · exact ⟨_, _, written⟩
  · rintro ⟨name, params, written⟩
    cases params with
    | nil => exact .inl ⟨_, .stop written⟩
    | cons first more => exact .inr ⟨first, .intro written⟩

theorem wellFormed_other (other : ∀ loc rest, tokens ≠ ⟨.slash, loc⟩ :: rest) :
    WellFormed defaultNamespace tokens ↔ Body defaultNamespace tokens := by
  constructor
  · rintro (⟨_, written⟩ | ⟨_, ⟨written⟩⟩)
    · cases written with
      | start written => exact ⟨_, _, written⟩
      | stop written => exact absurd rfl (other _ _)
    · exact absurd rfl (other _ _)
  · rintro ⟨name, params, written⟩
    exact .inl ⟨_, .start written⟩

theorem viable_other (other : ∀ loc rest, tokens ≠ ⟨.slash, loc⟩ :: rest) :
    Viable (WellFormed defaultNamespace) tokens ↔ Viable (Body defaultNamespace) tokens := by
  cases tokens with
  | nil =>
    have slash : Viable (WellFormed defaultNamespace) ([] ++ [⟨.slash, .start⟩] ++ []) :=
      (viable_after wellFormed_slash).mpr viable_body_nil
    exact iff_of_true slash.of_append.of_append viable_body_nil
  | cons token rest =>
    have nowhere (more : List Token) : ∀ loc rest', token :: rest ++ more ≠ ⟨.slash, loc⟩ :: rest' := by
      rintro loc _ ⟨⟩
      exact other loc rest rfl
    exact exists_congr fun more => wellFormed_other (nowhere more)

/-- Where there is no slash, a header is blamed for what its body is blamed for. -/
theorem Blames.of_body (other : ∀ loc rest, tokens ≠ ⟨.slash, loc⟩ :: rest)
    (blames : Blames (Body defaultNamespace) tokens fault) :
    Blames (WellFormed defaultNamespace) tokens fault := by
  cases blames with
  | @unexpected token impossible =>
    obtain ⟨before, after, rfl, viable, stuck⟩ := impossible
    have notBefore : ∀ loc rest, before ≠ ⟨.slash, loc⟩ :: rest := by
      rintro loc rest rfl
      exact other loc _ rfl
    have notAt : ∀ loc rest, before ++ [token] ≠ ⟨.slash, loc⟩ :: rest := by
      intro loc rest same
      refine other loc (rest ++ after) ?_
      rw [← List.cons_append, ← same, List.append_assoc, List.singleton_append]
    exact .unexpected ⟨before, after, rfl, (viable_other notBefore).mpr viable,
      mt (viable_other notAt).mp stuck⟩
  | endsBefore viable outside =>
    exact .endsBefore ((viable_other other).mpr viable) (mt (wellFormed_other other).mp outside)

/-- The parser accepts what the grammar says is a header. -/
theorem parse_eq_ok_iff :
    parse defaultNamespace tokens = .ok header ↔ Writes defaultNamespace tokens header := by
  rcases slash_or_other tokens with ⟨loc, rest, rfl⟩ | other
  · simp only [parse_slash, bind_eq_ok_iff, Prod.exists, parseBody_eq_ok_iff]
    constructor
    · rintro ⟨name, params, written, accepted⟩
      cases params with
      | nil =>
        cases accepted
        exact .stop written
      | cons => cases accepted
    · rintro (⟨⟨⟩⟩ | written)
      exact ⟨_, _, written, rfl⟩
  · simp only [parse_other other, bind_eq_ok_iff, Prod.exists, parseBody_eq_ok_iff]
    constructor
    · rintro ⟨name, params, written, ⟨⟩⟩
      exact .start written
    · intro written
      cases written with
      | start written => exact ⟨_, _, written, rfl⟩
      | stop => exact absurd rfl (other _ _)

/-- A fault is about a block end with parameters or about where no header goes on. -/
theorem blames_of_parse (failed : parse defaultNamespace tokens = .error fault) :
    (∃ first, WritesLoadedStop defaultNamespace tokens first ∧ fault = .paramsOnEnd first.loc) ∨
      Blames (WellFormed defaultNamespace) tokens fault := by
  rcases slash_or_other tokens with ⟨loc, rest, rfl⟩ | other
  · rw [parse_slash] at failed
    rcases bind_eq_error_iff.mp failed with body | ⟨⟨name, params⟩, body, refused⟩
    · exact .inr ((blames_of_parseBody body).after wellFormed_slash)
    · cases params with
      | nil => cases refused
      | cons first more =>
        cases refused
        exact .inl ⟨first, .intro (parseBody_eq_ok_iff.mp body), rfl⟩
  · rw [parse_other other] at failed
    rcases bind_eq_error_iff.mp failed with body | ⟨_, _, impossible⟩
    · exact .inr ((blames_of_parseBody body).of_body other)
    · cases impossible

theorem WellFormed.of_loaded {first : Parameter}
    (loaded : WritesLoadedStop defaultNamespace tokens first) : WellFormed defaultNamespace tokens :=
  .inr ⟨first, loaded⟩

/-- A block end with parameters is refused at its first key. -/
theorem parse_eq_paramsOnEnd_iff : parse defaultNamespace tokens = .error (.paramsOnEnd loc) ↔
    ∃ first, WritesLoadedStop defaultNamespace tokens first ∧ first.loc = loc := by
  constructor
  · intro failed
    rcases blames_of_parse failed with ⟨first, loaded, same⟩ | blames
    · cases same
      exact ⟨first, loaded, rfl⟩
    · cases blames
  · rintro ⟨first, ⟨written⟩, rfl⟩
    rw [parse_slash, parseBody_eq_ok_iff.mpr written]
    rfl

/-- What parsing comes to where tokens are no header at all. -/
theorem blames_of_not_wellFormed (malformed : ¬WellFormed defaultNamespace tokens) :
    ∃ fault, parse defaultNamespace tokens = .error fault ∧
      Blames (WellFormed defaultNamespace) tokens fault := by
  cases outcome : parse defaultNamespace tokens with
  | ok header => exact absurd (.inl ⟨header, parse_eq_ok_iff.mp outcome⟩) malformed
  | error fault =>
    rcases blames_of_parse outcome with ⟨first, loaded, -⟩ | blames
    · exact absurd (.of_loaded loaded) malformed
    · exact ⟨fault, rfl, blames⟩

theorem parse_eq_unexpected_iff : parse defaultNamespace tokens = .error (.unexpected token) ↔
    FirstImpossible (WellFormed defaultNamespace) tokens token := by
  constructor
  · intro failed
    rcases blames_of_parse failed with ⟨_, _, ⟨⟩⟩ | blames
    cases blames with
    | unexpected impossible => exact impossible
  · intro impossible
    obtain ⟨fault, failed, blames⟩ :=
      blames_of_not_wellFormed (mt Viable.of_mem impossible.not_viable)
    cases blames with
    | unexpected impossible' => rw [failed, impossible.unique impossible']
    | endsBefore viable _ => exact absurd viable impossible.not_viable

theorem parse_eq_endsBefore_iff :
    (∃ what, parse defaultNamespace tokens = .error (.endsBefore what)) ↔
      ¬WellFormed defaultNamespace tokens ∧
        ∀ token, ¬FirstImpossible (WellFormed defaultNamespace) tokens token := by
  constructor
  · rintro ⟨what, failed⟩
    rcases blames_of_parse failed with ⟨_, _, ⟨⟩⟩ | blames
    cases blames with
    | endsBefore viable malformed => exact ⟨malformed, fun _ impossible => impossible.not_viable viable⟩
  · rintro ⟨malformed, possible⟩
    obtain ⟨fault, failed, blames⟩ := blames_of_not_wellFormed malformed
    cases blames with
    | unexpected impossible => exact absurd impossible (possible _)
    | endsBefore => exact ⟨_, failed⟩

end Headers

/-- The parser recognises the language of headers. It reads from tokens the header
they write, refuses a block end with parameters at the first key, and of all other
tokens blames the first with which no header can go on, or else the end. -/
theorem parse_recognises (defaultNamespace : String) (tokens : List Token) :
    (∀ header, parse defaultNamespace tokens = .ok header ↔
      Writes defaultNamespace tokens header) ∧
    (∀ loc, parse defaultNamespace tokens = .error (.paramsOnEnd loc) ↔
      ∃ first, WritesLoadedStop defaultNamespace tokens first ∧ first.loc = loc) ∧
    (∀ token, parse defaultNamespace tokens = .error (.unexpected token) ↔
      FirstImpossible (WellFormed defaultNamespace) tokens token) ∧
    ((∃ what, parse defaultNamespace tokens = .error (.endsBefore what)) ↔
      ¬WellFormed defaultNamespace tokens ∧
        ∀ token, ¬FirstImpossible (WellFormed defaultNamespace) tokens token) ∧
    (¬WellFormed defaultNamespace tokens → ∃ fault, parse defaultNamespace tokens = .error fault ∧
      ∀ loc, fault.loc? = some loc ↔
        ∃ token, FirstImpossible (WellFormed defaultNamespace) tokens token ∧ token.loc = loc) := by
  refine ⟨fun _ => parse_eq_ok_iff, fun _ => parse_eq_paramsOnEnd_iff,
    fun _ => parse_eq_unexpected_iff, parse_eq_endsBefore_iff, ?_⟩
  intro malformed
  obtain ⟨fault, failed, blames⟩ := blames_of_not_wellFormed malformed
  refine ⟨fault, failed, fun loc => ?_⟩
  cases blames with
  | unexpected impossible =>
    constructor
    · rintro ⟨⟩
      exact ⟨_, impossible, rfl⟩
    · rintro ⟨token, impossible', rfl⟩
      rw [impossible.unique impossible']
      rfl
  | endsBefore viable _ =>
    refine iff_of_false nofun ?_
    rintro ⟨token, impossible, -⟩
    exact impossible.not_viable viable

end Regen.Header
