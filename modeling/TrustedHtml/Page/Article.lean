/-!
# Articles

## Main definitions

* `Article`, `Comment` — the data of a page of articles.
* `Article.samples` — made-up articles, some comments of which try to inject markup.
-/

namespace TrustedHtml

/-- A comment on an article. -/
structure Comment where
  author : String
  text : String
deriving DecidableEq, Repr

/-- An article with its comments. -/
structure Article where
  title : String
  author : String
  url : String
  body : String
  comments : List Comment
deriving DecidableEq, Repr

/-- A made-up comment on an article. Every fifth one tries to inject a script. -/
def Comment.sample (article number : Nat) : Comment where
  author := s!"reader{number}"
  text :=
    if number % 5 = 4 then "<script>alert('hi')</script>"
    else s!"Comment {number} on article {article}"

namespace Article

/-- A sentence to fill articles with. -/
def filler : String :=
  "Lorem ipsum dolor sit amet, consectetur adipiscing elit, sed do " ++
    "eiusmod tempor incididunt ut labore et dolore magna aliqua."

/-- A made-up article. -/
def sample (number comments : Nat) : Article where
  title := s!"Article #{number}: on <things> & stuff"
  author := s!"Author {number % 7}"
  url := s!"/articles/{number}?ref=list&page={number / 10}"
  body := String.join (List.replicate (1 + number % 3) filler)
  comments := (List.range comments).map (Comment.sample number)

/-- Made-up articles, each with the given number of comments. -/
def samples (articles comments : Nat) : List Article :=
  (List.range articles).map (sample · comments)

end Article

end TrustedHtml
