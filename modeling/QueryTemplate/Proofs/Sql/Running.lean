import QueryTemplate.Sql.Statement

/-!
# Readers run

What each way to put readers together does to the tokens in front of it. Where `Running` is open, the
lemmas are simplification rules, so that a reader whose parts are known runs by them.
-/

namespace QueryTemplate.Sql

namespace Running

open Reader

variable {α β : Type}

@[scoped simp] theorem run_bind (r : Reader α) (f : α → Reader β) (ts : List Token) :
    (r >>= f) ts = match r ts with
      | .ok (a, us) => f a us
      | .error e => .error e := by
  change (r ts >>= fun p => f p.1 p.2) = _
  cases r ts <;> rfl

@[scoped simp] theorem run_pure (a : α) (ts : List Token) : (pure a : Reader α) ts = .ok (a, ts) :=
  rfl

@[scoped simp] theorem run_map (f : α → β) (r : Reader α) (ts : List Token) :
    (f <$> r) ts = match r ts with
      | .ok (a, us) => .ok (f a, us)
      | .error e => .error e := by
  change (r ts >>= fun p => .ok (f p.1, p.2)) = _
  cases r ts <;> rfl

@[scoped simp] theorem run_get (ts : List Token) : (get : Reader (List Token)) ts = .ok (ts, ts) :=
  rfl

@[scoped simp] theorem run_modify (f : List Token → List Token) (ts : List Token) :
    (modify f : Reader Unit) ts = .ok ((), f ts) :=
  rfl

@[scoped simp] theorem run_fail (ts : List Token) : (fail : Reader α) ts = .error .malformed :=
  rfl

@[scoped simp] theorem run_ite {p : Prop} [Decidable p] (r s : Reader α) (ts : List Token) :
    (if p then r else s) ts = if p then r ts else s ts :=
  apply_ite (· ts) p r s

/-! ## Single tokens -/

@[scoped simp] theorem startsWith_nil (s : Symbol) : startsWith s [] = false :=
  rfl

@[scoped simp] theorem startsWith_cons (s : Symbol) (t : Token) (ts : List Token) :
    startsWith s (t :: ts) = decide (t = .symbol s) := by
  simp [startsWith]

@[scoped simp] theorem keyword?_nil : keyword? [] = none :=
  rfl

@[scoped simp] theorem keyword?_word (name : Ident) (k : Option Keyword) (ts : List Token) :
    keyword? (.word name k :: ts) = k :=
  rfl

@[scoped simp] theorem keyword?_symbol (s : Symbol) (ts : List Token) : keyword? (.symbol s :: ts) = none :=
  rfl

@[scoped simp] theorem keyword?_number (digits : String) (long : Bool) (ts : List Token) :
    keyword? (.number digits long :: ts) = none :=
  rfl

@[scoped simp] theorem keyword?_text (s : String) (ts : List Token) : keyword? (.text s :: ts) = none :=
  rfl

@[scoped simp] theorem keyword?_placeholder (s : String) (ts : List Token) :
    keyword? (.placeholder s :: ts) = none :=
  rfl

@[scoped simp] theorem run_take_nil (f : Token → Option α) : take f [] = .error .malformed :=
  rfl

@[scoped simp] theorem run_take (f : Token → Option α) (t : Token) (ts : List Token) :
    take f (t :: ts) = match f t with
      | some a => .ok (a, ts)
      | none => .error .malformed := by
  simp only [take, run_bind, run_get]
  cases f t <;> rfl

@[scoped simp] theorem run_accept (s : Symbol) (ts : List Token) :
    accept s ts = .ok (startsWith s ts, if startsWith s ts then ts.tail else ts) := by
  cases h : startsWith s ts <;> simp [accept, h]

@[scoped simp] theorem run_expect (s : Symbol) (ts : List Token) :
    expect s ts = if startsWith s ts then .ok ((), ts.tail) else .error .malformed := by
  cases h : startsWith s ts <;> simp [expect, h]

@[scoped simp] theorem dropKeywords_nil (ts : List Token) : dropKeywords [] ts = some ts :=
  rfl

@[scoped simp] theorem dropKeywords_cons (k : Keyword) (ks : List Keyword) (ts : List Token) :
    dropKeywords (k :: ks) ts = if keyword? ts = some k then dropKeywords ks ts.tail else none :=
  rfl

@[scoped simp] theorem run_acceptWords (ks : List Keyword) (ts : List Token) :
    acceptWords ks ts = match dropKeywords ks ts with
      | some rest => .ok (true, rest)
      | none => .ok (false, ts) := by
  rw [acceptWords, run_bind, run_get]
  dsimp only
  cases dropKeywords ks ts <;> rfl

@[scoped simp] theorem run_acceptWord (k : Keyword) (ts : List Token) :
    acceptWord k ts = if keyword? ts = some k then .ok (true, ts.tail) else .ok (false, ts) := by
  by_cases h : keyword? ts = some k <;> simp [acceptWord, h]

@[scoped simp] theorem run_expectWord (k : Keyword) (ts : List Token) :
    expectWord k ts = if keyword? ts = some k then .ok ((), ts.tail) else .error .malformed := by
  by_cases h : keyword? ts = some k <;> simp [expectWord, h]

@[scoped simp] theorem run_acceptOneOf_nil (ts : List Token) :
    acceptOneOf ([] : List (Keyword × α)) ts = .ok (none, ts) :=
  rfl

@[scoped simp] theorem run_acceptOneOf_cons (k : Keyword) (a : α) (more : List (Keyword × α))
    (ts : List Token) : acceptOneOf ((k, a) :: more) ts
      = if keyword? ts = some k then .ok (some a, ts.tail) else acceptOneOf more ts := by
  by_cases h : keyword? ts = some k <;> simp [acceptOneOf, h]

/-! ## Parts in a row -/

@[scoped simp] theorem run_after (ks : List Keyword) (r : Reader α) (ts : List Token) :
    after ks r ts = match dropKeywords ks ts with
      | some rest => (some <$> r) rest
      | none => .ok (none, ts) := by
  rw [after, run_bind, run_acceptWords]
  cases dropKeywords ks ts <;> rfl

@[scoped simp] theorem run_attempt (r : Reader α) (ts : List Token) :
    attempt r ts = match r ts with
      | .ok (a, rest) => .ok (some a, rest)
      | .error .malformed => .ok (none, ts)
      | .error .tooDeep => .error .tooDeep :=
  rfl

@[scoped simp] theorem run_orElse (first second : Reader α) (ts : List Token) :
    orElse first second ts = match first ts with
      | .ok r => .ok r
      | .error failure => match second ts with
        | .ok r => .ok r
        | .error _ => .error failure :=
  rfl

@[scoped simp] theorem run_parens (r : Reader α) (ts : List Token) :
    parens r (.symbol .opening :: ts) = match r ts with
      | .ok (a, rest) =>
        if startsWith .closing rest then .ok (a, rest.tail) else .error .malformed
      | .error e => .error e := by
  cases hr : r ts with
  | error e => simp [parens, hr]
  | ok p => cases h : startsWith .closing p.2 <;> simp [parens, hr, h]

@[scoped simp] theorem run_list (one : Reader α) (ts : List Token) :
    list one ts = listAtMost one (ts.length + 1) ts :=
  rfl

end Running

end QueryTemplate.Sql
