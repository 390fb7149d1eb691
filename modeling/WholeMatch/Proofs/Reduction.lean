import WholeMatch.Expr.Basic

/-!
# Reading post-order back

The tokens of an expression determine it. `reduce?` lets a token combine the expressions read so
far, the last of them first; a token list that leaves exactly one expression consists of the tokens
of this one and no other (`reduceAll?_eq_some_singleton_iff`).
-/

namespace WholeMatch.Expr

/-- Combines the last expressions by a token; nothing if there are too few. -/
def reduce? : Token → List Expr → Option (List Expr)
  | .literal c, stack => some (literal c :: stack)
  | .operator .concat, b :: a :: stack => some (concat a b :: stack)
  | .operator .alternate, b :: a :: stack => some (alternate a b :: stack)
  | .operator .star, a :: stack => some (star a :: stack)
  | .operator _, _ => none

/-- Combines expressions by one token after the other. -/
def reduceAll? : List Token → List Expr → Option (List Expr)
  | [], stack => some stack
  | token :: rest, stack => (reduce? token stack).bind (reduceAll? rest)

/-- The tokens of all expressions read so far, the last of which comes first. -/
def writtenAll : List Expr → List Token
  | [] => []
  | e :: below => writtenAll below ++ e.tokens

theorem reduce?_eq_none_iff {token : Token} {stack : List Expr} :
    reduce? token stack = none ↔ stack.length < token.arity := by
  cases token with
  | literal c => simp [reduce?, Token.arity]
  | operator op =>
    cases op <;> rcases stack with _ | ⟨b, _ | ⟨a, stack⟩⟩ <;>
      simp [reduce?, Token.arity, Operator.arity]

/-- Combining writes nothing but the token. -/
theorem writtenAll_of_reduce? {token : Token} {stack stack' : List Expr}
    (h : reduce? token stack = some stack') : writtenAll stack' = writtenAll stack ++ [token] := by
  unfold reduce? at h
  split at h <;> cases h <;> simp [writtenAll, tokens]

theorem writtenAll_of_reduceAll? {rest : List Token} {stack stack' : List Expr}
    (h : reduceAll? rest stack = some stack') : writtenAll stack' = writtenAll stack ++ rest := by
  induction rest generalizing stack with
  | nil =>
    cases h
    rw [List.append_nil]
  | cons token rest ih =>
    rw [reduceAll?, Option.bind_eq_some_iff] at h
    obtain ⟨next, step, later⟩ := h
    rw [ih later, writtenAll_of_reduce? step, List.append_assoc, List.singleton_append]

theorem reduceAll?_append (first second : List Token) (stack : List Expr) :
    reduceAll? (first ++ second) stack =
      (reduceAll? first stack).bind (reduceAll? second) := by
  induction first generalizing stack with
  | nil => rfl
  | cons token first ih =>
    rw [List.cons_append, reduceAll?, reduceAll?, Option.bind_assoc]
    congr
    funext next
    exact ih next

/-- The tokens of an expression add it to those read before. -/
theorem reduceAll?_tokens (e : Expr) (stack : List Expr) :
    reduceAll? e.tokens stack = some (e :: stack) := by
  induction e generalizing stack with
  | literal c => rfl
  | concat a b iha ihb =>
    rw [tokens, reduceAll?_append, reduceAll?_append, iha, Option.bind_some, ihb]
    rfl
  | alternate a b iha ihb =>
    rw [tokens, reduceAll?_append, reduceAll?_append, iha, Option.bind_some, ihb]
    rfl
  | star a iha =>
    rw [tokens, reduceAll?_append, iha]
    rfl

/-- Exactly the tokens of some expressions, one after the other, leave just these. -/
theorem reduceAll?_eq_some_iff {written : List Token} {stack : List Expr} :
    reduceAll? written [] = some stack ↔ written = writtenAll stack := by
  constructor
  · intro h
    have all := writtenAll_of_reduceAll? h
    simpa [writtenAll] using all.symm
  · intro same
    subst same
    induction stack with
    | nil => rfl
    | cons e below ih => rw [writtenAll, reduceAll?_append, ih, Option.bind_some, reduceAll?_tokens]

theorem reduceAll?_eq_some_singleton_iff {written : List Token} {e : Expr} :
    reduceAll? written [] = some [e] ↔ written = e.tokens := by
  rw [reduceAll?_eq_some_iff, writtenAll, writtenAll, List.nil_append]

theorem tokens_injective : Function.Injective tokens := by
  intro e f same
  have read := reduceAll?_tokens e []
  rw [same, reduceAll?_tokens f []] at read
  cases read
  rfl

theorem postorder_inj {e f : Expr} : e.postorder = f.postorder ↔ e = f := by
  rw [postorder, postorder, Postorder.mk.injEq]
  exact tokens_injective.eq_iff

end WholeMatch.Expr
