import TrustedHtml.Page.ArticlePage
import TrustedHtml.Url.Web

/-!
# The Example Program

Prints a page of made-up articles.
-/

open TrustedHtml

/-- Print a page of two articles with five comments each. -/
def main : IO UInt32 := do
  match ArticlePage.compile .tidy 1 with
  | .error e =>
    IO.eprintln e.headline
    return 1
  | .ok page =>
    let delivery := page.renderBound "Example articles" (Article.samples 2 5) none
    IO.println delivery.accepted
    match delivery.stopped with
    | none => return 0
    | some e =>
      IO.eprintln e.headline
      return 1
