import Mathlib.Data.List.Induction

/-!
Things that are asked one call after the other. What is asked answers each call and is then what the
call has made of it, so what holds of it at first and is kept by every call holds after all of them.
-/
namespace WordMachine

def serveAll {σ α β : Type} (serve : σ → α → σ × β) (s : σ) : List α → σ × List β
  | [] => (s, [])
  | call :: rest =>
    let (t, answer) := serve s call
    let (u, answers) := serveAll serve t rest
    (u, answer :: answers)

variable {σ α β : Type} {serve : σ → α → σ × β}

theorem serveAll_cons (s : σ) (call : α) (rest : List α) : serveAll serve s (call :: rest) =
    ((serveAll serve (serve s call).1 rest).1,
      (serve s call).2 :: (serveAll serve (serve s call).1 rest).2) := rfl

theorem serveAll_append (s : σ) (calls later : List α) : serveAll serve s (calls ++ later) =
    ((serveAll serve (serveAll serve s calls).1 later).1,
      (serveAll serve s calls).2 ++ (serveAll serve (serveAll serve s calls).1 later).2) := by
  induction calls generalizing s with
  | nil => rfl
  | cons call rest ih => rw [List.cons_append, serveAll_cons, ih, serveAll_cons, List.cons_append]

theorem serveAll_concat (s : σ) (calls : List α) (call : α) :
    serveAll serve s (calls ++ [call]) = ((serve (serveAll serve s calls).1 call).1,
      (serveAll serve s calls).2 ++ [(serve (serveAll serve s calls).1 call).2]) :=
  serveAll_append s calls [call]

/-- What holds before any call and is kept by each one, of the calls so far, of what they have made
and of their answers, holds after all of them. -/
theorem serveAll_induction {motive : List α → σ → List β → Prop} {s : σ} (start : motive [] s [])
    (step : ∀ calls t answers call, motive calls t answers →
      motive (calls ++ [call]) (serve t call).1 (answers ++ [(serve t call).2]))
    (calls : List α) : motive calls (serveAll serve s calls).1 (serveAll serve s calls).2 := by
  induction calls using List.reverseRecOn with
  | nil => exact start
  | append_singleton calls call ih =>
    rw [serveAll_concat]
    exact step calls _ _ call ih

end WordMachine
