import ScriptBackend.Lowering.Expr

/-!
# Argument trailers

A command that takes any number of arguments is told their types by a string pushed after them, one
code per argument past the fixed ones. An argument without a code is refused before any argument is
lowered.
-/

namespace ScriptBackend

/-- The codes of the types of arguments. -/
def typeCodes : List Expr → Except LoweringError (List Char)
  | [] => .ok []
  | arg :: rest =>
    match arg.ty with
    | .scalar element => return element.code :: (← typeCodes rest)
    | .array _ | .unit => .error ⟨.unsupportedType arg.ty .argumentDescription, arg.span⟩

/-- The handler that pushes the codes of all arguments past the first `fixed` ones after the
arguments and before the command. -/
def Handler.argumentTrailer (fixed : Nat) : Handler where
  lower _ head args lowerArgs := do
    let codes ← Lower.ofExcept (typeCodes ((args.map Prod.fst).drop fixed))
    lowerArgs
    Lower.emit ((Instruction.pushString (String.ofList codes)).atSpan head.span)
    Lower.invoke head

/-- A description has one code per argument. -/
theorem length_of_typeCodes {args : List Expr} {codes : List Char}
    (h : typeCodes args = .ok codes) : codes.length = args.length := by
  induction args generalizing codes with
  | nil => cases h; rfl
  | cons arg rest ih =>
    unfold typeCodes at h
    cases hty : arg.ty with
    | scalar element =>
      rw [hty] at h
      cases hrest : typeCodes rest with
      | error error => simp [hrest, bind, Except.bind] at h
      | ok tail =>
        simp only [hrest, bind, Except.bind, pure, Except.pure, Except.ok.injEq] at h
        subst h
        simp [ih hrest]
    | array element => simp [hty] at h
    | unit => simp [hty] at h

end ScriptBackend
