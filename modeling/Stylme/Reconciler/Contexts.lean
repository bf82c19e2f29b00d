-- SUMMARY: The code-shipped contexts: what places, festivals and moods in a query are taken to mean.
import Stylme.Catalogue.Query
import Stylme.Reconciler.Traversal

/-!
# Contexts

The words of `INDIAN_CONTEXTS`, each with the tags it stands for and their weights in hundredths.
`baseline_context_signals` turns them into signals, without a graph.
-/

namespace Stylme

namespace Reconciler

/-- A field, a value and the weight of the tag in hundredths. -/
abbrev ContextTag := String × String × ℕ

/-- `INDIAN_CONTEXTS`, after its update by the requests of `indian_search_demand.py`. -/
def indianContexts : List (String × List ContextTag) :=
  [("udaipur", [("style", "ethnic", 88), ("aesthetic", "desi-fusion", 82),
      ("dress_code", "ethnic-festive", 80), ("season", "summer", 72), ("material", "cotton", 68)]),
    ("jaipur", [("style", "ethnic", 88), ("aesthetic", "desi-fusion", 82),
      ("dress_code", "ethnic-festive", 78), ("material", "cotton", 70)]),
    ("goa", [("occasion", "travel", 86), ("dress_code", "casual", 82), ("season", "summer", 86),
      ("fit", "relaxed", 72)]),
    ("manali", [("season", "winter", 90), ("occasion", "travel", 78), ("dress_code", "casual", 72)]),
    ("delhi", [("style", "contemporary", 84), ("dress_code", "smart-casual", 82),
      ("season", "all-season", 76)]),
    ("new delhi", [("style", "contemporary", 84), ("dress_code", "smart-casual", 82),
      ("season", "all-season", 76)]),
    ("mumbai", [("season", "summer", 88), ("material", "cotton", 84), ("material", "linen", 80),
      ("dress_code", "smart-casual", 76)]),
    ("bengaluru", [("season", "all-season", 88), ("dress_code", "smart-casual", 84),
      ("style", "contemporary", 80)]),
    ("bangalore", [("season", "all-season", 88), ("dress_code", "smart-casual", 84),
      ("style", "contemporary", 80)]),
    ("hyderabad", [("season", "summer", 86), ("material", "cotton", 80),
      ("style", "contemporary", 78), ("aesthetic", "desi-fusion", 74)]),
    ("chennai", [("season", "summer", 92), ("material", "cotton", 88), ("material", "linen", 82),
      ("fit", "relaxed", 74)]),
    ("kolkata", [("season", "summer", 84), ("material", "cotton", 82),
      ("style", "contemporary", 76), ("aesthetic", "desi-fusion", 74)]),
    ("pune", [("season", "all-season", 84), ("dress_code", "smart-casual", 82),
      ("occasion", "college", 72), ("style", "contemporary", 74)]),
    ("ahmedabad", [("season", "summer", 88), ("material", "cotton", 84),
      ("aesthetic", "desi-fusion", 78)]),
    ("lucknow", [("style", "ethnic", 86), ("material", "cotton", 80),
      ("surface_detail", "chikankari", 84), ("aesthetic", "desi-fusion", 76)]),
    ("chandigarh", [("dress_code", "smart-casual", 84), ("style", "contemporary", 80),
      ("season", "all-season", 74)]),
    ("surat", [("style", "contemporary", 80), ("aesthetic", "desi-fusion", 78),
      ("season", "summer", 76)]),
    ("kochi", [("season", "summer", 90), ("season", "monsoon", 82), ("material", "cotton", 86),
      ("fit", "relaxed", 76)]),
    ("varanasi", [("style", "ethnic", 86), ("material", "silk", 80),
      ("dress_code", "ethnic-festive", 76)]),
    ("shimla", [("season", "winter", 94), ("material", "wool", 88), ("occasion", "travel", 82)]),
    ("rishikesh", [("occasion", "travel", 90), ("dress_code", "casual", 84),
      ("material", "cotton", 78), ("fit", "relaxed", 76)]),
    ("agra", [("occasion", "travel", 86), ("dress_code", "smart-casual", 78),
      ("season", "summer", 70)]),
    ("college", [("generation", "gen-z", 86), ("occasion", "college", 84),
      ("dress_code", "campus", 84), ("trend_signal", "trending", 72)]),
    ("office", [("occasion", "office", 90), ("style", "smart-casual", 84),
      ("dress_code", "formal", 90)]),
    ("diwali", [("festival", "diwali", 98), ("dress_code", "ethnic-festive", 94),
      ("style", "ethnic", 88)]),
    ("navratri", [("festival", "navratri", 98), ("dress_code", "ethnic-festive", 94),
      ("style", "ethnic", 88)]),
    ("wedding guest", [("occasion", "wedding", 96), ("dress_code", "wedding-guest", 94),
      ("style", "ethnic", 78)]),
    ("sangeet", [("occasion", "sangeet", 96), ("occasion", "wedding", 86),
      ("dress_code", "bridal-party", 82)]),
    ("haldi", [("occasion", "haldi", 96), ("occasion", "wedding", 84),
      ("color_family", "yellow", 82)]),
    ("date night", [("occasion", "date-night", 98), ("dress_code", "smart-casual", 82)]),
    ("birthday", [("occasion", "party", 96), ("theme", "party", 94), ("mood", "playful", 84),
      ("dress_code", "cocktail", 72), ("silhouette", "midi", 70)]),
    ("birthday party", [("occasion", "party", 98), ("theme", "party", 96), ("mood", "playful", 88),
      ("dress_code", "cocktail", 78)]),
    ("happy", [("mood", "playful", 92), ("pattern", "floral", 78), ("color_family", "yellow", 72),
      ("color_family", "pink", 70)]),
    ("joyful", [("mood", "playful", 90), ("pattern", "floral", 78), ("color_family", "yellow", 72)]),
    ("funky", [("mood", "bold", 88), ("mood", "playful", 84), ("aesthetic", "indie", 82),
      ("style", "streetwear", 74), ("pattern", "colourblocked", 90),
      ("color_family", "multicolor", 84)]),
    ("minimal", [("style", "minimalist", 98), ("theme", "minimal", 98), ("pattern", "solid", 82),
      ("fit", "straight", 76), ("aesthetic", "clean-girl", 74)]),
    ("minimalist", [("style", "minimalist", 99), ("theme", "minimal", 96),
      ("pattern", "solid", 82), ("fit", "straight", 76)]),
    ("fast moving", [("style", "sporty", 96), ("occasion", "workout", 84), ("fit", "relaxed", 76),
      ("material", "nylon", 68)]),
    ("move fast", [("style", "sporty", 94), ("occasion", "workout", 82), ("fit", "relaxed", 76)]),
    ("on the go", [("style", "sporty", 90), ("occasion", "travel", 84), ("fit", "relaxed", 80),
      ("material", "cotton", 70)]),
    ("always on the go", [("style", "sporty", 94), ("occasion", "travel", 86),
      ("fit", "relaxed", 82)]),
    ("running around", [("style", "sporty", 92), ("occasion", "workout", 84),
      ("fit", "relaxed", 78)]),
    ("lots of walking", [("occasion", "travel", 88), ("style", "sporty", 82),
      ("fit", "relaxed", 82)]),
    ("dance all night", [("occasion", "party", 94), ("mood", "playful", 86),
      ("fit", "relaxed", 72)]),
    ("command the room", [("mood", "power-dressing", 96), ("dress_code", "formal", 88),
      ("fit", "tailored", 88)]),
    ("boss mode", [("mood", "power-dressing", 96), ("theme", "workwear", 88),
      ("fit", "tailored", 84)]),
    ("important meeting", [("occasion", "office", 94), ("dress_code", "formal", 92),
      ("mood", "power-dressing", 86), ("fit", "tailored", 84)]),
    ("turn heads", [("mood", "bold", 96), ("occasion", "party", 84),
      ("pattern", "colourblocked", 78), ("surface_detail", "sequinned", 74)]),
    ("stand out", [("mood", "bold", 94), ("trend_signal", "trending", 82),
      ("pattern", "colourblocked", 76)]),
    ("make a statement", [("mood", "bold", 96), ("style", "streetwear", 80),
      ("trend_signal", "trending", 80)]),
    ("keep it simple", [("style", "minimalist", 96), ("theme", "minimal", 94),
      ("pattern", "solid", 84)]),
    ("nothing loud", [("style", "minimalist", 92), ("theme", "minimal", 90),
      ("pattern", "solid", 82)]),
    ("clean look", [("aesthetic", "clean-girl", 94), ("style", "minimalist", 88)]),
    ("easy going", [("mood", "relaxed", 92), ("dress_code", "casual", 88), ("fit", "relaxed", 84)]),
    ("chill day", [("mood", "relaxed", 94), ("theme", "casual", 90), ("fit", "relaxed", 84)]),
    ("laid back", [("mood", "relaxed", 94), ("dress_code", "casual", 88), ("fit", "loose", 80)]),
    ("comfortable all day", [("fit", "relaxed", 94), ("material", "cotton", 86),
      ("occasion", "everyday", 84)]),
    ("soft and dreamy", [("mood", "romantic", 92), ("aesthetic", "soft-girl", 90),
      ("material", "chiffon", 76)]),
    ("gentle vibe", [("mood", "romantic", 88), ("aesthetic", "soft-girl", 86),
      ("pattern", "floral", 72)]),
    ("hot weather", [("season", "summer", 96), ("material", "cotton", 90),
      ("material", "linen", 86), ("fit", "relaxed", 74)]),
    ("humid weather", [("season", "summer", 94), ("material", "cotton", 90),
      ("material", "linen", 84), ("fit", "relaxed", 76)]),
    ("rainy day", [("season", "monsoon", 96), ("style", "sporty", 68)]),
    ("cold weather", [("season", "winter", 96), ("material", "wool", 90), ("fit", "regular", 70)]),
    ("camera ready", [("trend_signal", "trending", 90), ("mood", "bold", 82),
      ("style", "contemporary", 78)]),
    ("reel ready", [("trend_signal", "viral", 96), ("style", "contemporary", 82)]),
    ("family function", [("dress_code", "ethnic-festive", 94), ("style", "ethnic", 90)]),
    ("for her", [("gender", "women", 96)]),
    ("for him", [("gender", "men", 96)]),
    ("sundar", [("mood", "elegant", 94), ("style", "classic", 78)]),
    ("सुंदर", [("mood", "elegant", 94), ("style", "classic", 78)]),
    ("bahut sundar", [("mood", "elegant", 96), ("style", "classic", 80)]),
    ("बहुत सुंदर", [("mood", "elegant", 96), ("style", "classic", 80)]),
    ("ekdam pretty", [("mood", "romantic", 90), ("aesthetic", "soft-girl", 86)]),
    ("bilkul pretty", [("mood", "romantic", 88), ("aesthetic", "soft-girl", 84)]),
    ("khoobsurat", [("mood", "elegant", 94), ("style", "classic", 80)]),
    ("खूबसूरत", [("mood", "elegant", 94), ("style", "classic", 80)]),
    ("pyara sa", [("mood", "playful", 88), ("aesthetic", "soft-girl", 84)]),
    ("एकदम प्यारा", [("mood", "playful", 90), ("aesthetic", "soft-girl", 84)]),
    ("elegant lagna hai", [("mood", "elegant", 98), ("style", "classic", 86)]),
    ("classy chahiye", [("aesthetic", "quiet-luxury", 90), ("style", "classic", 86)]),
    ("royal look", [("style", "luxury", 92), ("aesthetic", "quiet-luxury", 84)]),
    ("shahi look", [("style", "luxury", 92), ("mood", "elegant", 88)]),
    ("सादा और सुंदर", [("style", "minimalist", 92), ("mood", "elegant", 84)]),
    ("loose", [("fit", "loose", 99), ("mood", "relaxed", 78)]),
    ("loose fit ka", [("fit", "loose", 99), ("fit", "relaxed", 86)]),
    ("dheela", [("fit", "loose", 98), ("fit", "relaxed", 86)]),
    ("ढीला", [("fit", "loose", 98), ("fit", "relaxed", 86)]),
    ("thoda loose", [("fit", "loose", 96), ("fit", "relaxed", 84)]),
    ("baggy chahiye", [("fit", "oversized", 98), ("style", "streetwear", 80)]),
    ("oversized look", [("fit", "oversized", 98), ("style", "streetwear", 82)]),
    ("relaxed fit", [("fit", "relaxed", 99), ("mood", "relaxed", 84)]),
    ("aaramdayak", [("fit", "relaxed", 96), ("material", "cotton", 84)]),
    ("आरामदायक", [("fit", "relaxed", 96), ("material", "cotton", 84)]),
    ("chipka hua nahi", [("fit", "loose", 94), ("fit", "relaxed", 88)]),
    ("चिपका हुआ नहीं", [("fit", "loose", 94), ("fit", "relaxed", 88)]),
    ("body pe tight nahi", [("fit", "loose", 94), ("fit", "relaxed", 88)]),
    ("hawa daar", [("material", "cotton", 92), ("material", "linen", 88), ("fit", "relaxed", 82)]),
    ("हवादार", [("material", "cotton", 92), ("material", "linen", 88), ("fit", "relaxed", 82)]),
    ("floral", [("pattern", "floral", 99)]),
    ("floral wala", [("pattern", "floral", 98)]),
    ("phool wala", [("pattern", "floral", 98)]),
    ("फूलों वाला", [("pattern", "floral", 98)]),
    ("flower print", [("pattern", "floral", 96), ("pattern", "printed", 84)]),
    ("white color ka", [("color_family", "white", 99), ("pattern", "solid", 74)]),
    ("safed wala", [("color_family", "white", 99)]),
    ("सफेद रंग का", [("color_family", "white", 99)]),
    ("plain white", [("color_family", "white", 98), ("pattern", "solid", 94)]),
    ("bina print ka", [("pattern", "solid", 97), ("style", "minimalist", 82)]),
    ("बिना प्रिंट का", [("pattern", "solid", 97), ("style", "minimalist", 82)]),
    ("solid color", [("pattern", "solid", 98)]),
    ("striped wala", [("pattern", "striped", 98)]),
    ("checks wala", [("pattern", "checked", 98)]),
    ("embroidered wala", [("pattern", "embroidered", 96), ("surface_detail", "embroidery", 92)]),
    ("shaadi ke liye", [("occasion", "wedding", 99), ("dress_code", "wedding-guest", 90)]),
    ("शादी के लिए", [("occasion", "wedding", 99), ("dress_code", "wedding-guest", 90)]),
    ("bhai ki shaadi", [("occasion", "wedding", 99), ("dress_code", "wedding-guest", 92)]),
    ("भाई की शादी", [("occasion", "wedding", 99), ("dress_code", "wedding-guest", 92)]),
    ("cousin ki mehendi", [("occasion", "mehendi", 99), ("dress_code", "ethnic-festive", 90)]),
    ("हल्दी फंक्शन", [("occasion", "haldi", 99), ("color_family", "yellow", 82)]),
    ("sangeet night", [("occasion", "sangeet", 99), ("dress_code", "bridal-party", 86)]),
    ("diwali outfit", [("festival", "diwali", 99), ("theme", "festive", 94)]),
    ("navratri garba", [("festival", "navratri", 99), ("theme", "festive", 94)]),
    ("eid ke liye", [("festival", "eid", 99), ("theme", "festive", 94)]),
    ("rakhi outfit", [("festival", "raksha-bandhan", 99), ("theme", "festive", 92)]),
    ("durga puja look", [("festival", "durga-puja", 99), ("occasion", "puja", 92)]),
    ("पूजा के कपड़े", [("occasion", "puja", 99), ("theme", "devotional", 92)]),
    ("wedding guest look", [("occasion", "wedding-guest", 99), ("dress_code", "wedding-guest", 98)]),
    ("minimal look", [("style", "minimalist", 98), ("theme", "minimal", 96)]),
    ("zyada loud nahi", [("style", "minimalist", 94), ("theme", "minimal", 90)]),
    ("ज्यादा चमकीला नहीं", [("style", "minimalist", 92), ("pattern", "solid", 84)]),
    ("subtle chahiye", [("style", "minimalist", 94), ("aesthetic", "quiet-luxury", 82)]),
    ("funky look", [("mood", "bold", 92), ("aesthetic", "indie", 88)]),
    ("bold chahiye", [("mood", "bold", 98), ("pattern", "colourblocked", 78)]),
    ("happy mood", [("mood", "playful", 96), ("pattern", "floral", 76)]),
    ("chill vibe", [("mood", "relaxed", 96), ("dress_code", "casual", 90)]),
    ("romantic look", [("mood", "romantic", 98), ("theme", "romantic", 94)]),
    ("boss lady look", [("mood", "power-dressing", 98), ("fit", "tailored", 90)]),
    ("professional smart", [("dress_code", "formal", 94), ("style", "smart-casual", 90)]),
    ("instagram worthy", [("trend_signal", "trending", 94), ("mood", "bold", 84)]),
    ("udaipur vibe", [("style", "ethnic", 90), ("aesthetic", "desi-fusion", 84)]),
    ("jaipur ethnic", [("style", "ethnic", 92), ("material", "cotton", 82)]),
    ("lucknow chikankari", [("surface_detail", "chikankari", 98), ("style", "ethnic", 88)]),
    ("mumbai ki garmi", [("season", "summer", 96), ("material", "cotton", 90),
      ("material", "linen", 86)]),
    ("chennai heat ke liye", [("season", "summer", 98), ("material", "cotton", 92),
      ("fit", "relaxed", 80)]),
    ("bangalore office look", [("occasion", "office", 94), ("dress_code", "smart-casual", 92)]),
    ("goa trip outfit", [("occasion", "travel", 96), ("theme", "vacation", 92),
      ("fit", "relaxed", 82)]),
    ("manali winter", [("season", "winter", 98), ("material", "wool", 90)]),
    ("shimla cold", [("season", "winter", 98), ("material", "wool", 90)]),
    ("मुंबई की बारिश", [("season", "monsoon", 98), ("style", "sporty", 72)]),
    ("kolkata puja look", [("occasion", "puja", 96), ("festival", "durga-puja", 94)]),
    ("ahmedabad navratri", [("festival", "navratri", 98), ("theme", "festive", 92)]),
    ("varanasi puja", [("occasion", "puja", 96), ("style", "ethnic", 88)]),
    ("kochi monsoon", [("season", "monsoon", 98), ("material", "cotton", 86)]),
    ("rishikesh travel", [("occasion", "travel", 96), ("fit", "relaxed", 84)]),
    ("gen z college look", [("generation", "gen-z", 98), ("occasion", "college", 94),
      ("style", "gen-z", 90)]),
    ("gen alpha trendy", [("generation", "gen-alpha", 98), ("trend_signal", "trending", 90)]),
    ("millennial classic", [("generation", "millennial", 98), ("style", "classic", 92)]),
    ("timeless style", [("generation", "timeless", 96), ("trend_signal", "evergreen", 92)]),
    ("y2k vibe", [("aesthetic", "y2k", 98), ("generation", "gen-z", 84)]),
    ("old money look", [("aesthetic", "old-money", 98), ("style", "classic", 88)]),
    ("clean girl aesthetic", [("aesthetic", "clean-girl", 99), ("style", "minimalist", 88)]),
    ("boho chic", [("aesthetic", "boho-chic", 99), ("style", "bohemian", 94)]),
    ("pure cotton ka", [("material", "pure-cotton", 99), ("season", "summer", 82)]),
    ("कॉटन का", [("material", "cotton", 99), ("season", "summer", 82)])]

/-! ## Signals -/

/-- `str.title` of a text in ASCII, after a letter or not. -/
def titled : Bool → List Char → List Char
  | _, [] => []
  | inWord, c :: text => (if inWord then c.toLower else c.toUpper) :: titled c.isAlpha text

/-- The keys of all options of a field, active or not. -/
def optionKeys (fields : List Catalogue.MetadataField) (field : String) : List String :=
  (Catalogue.fieldOf fields field).elim [] fun f => f.options.map (·.keyText)

/-- The signal of a tag that a context stands for. -/
def contextSignal (concept : String) (tag : ContextTag) : Signal where
  node := taxonomyNode tag.1 tag.2.1
  field := some tag.1
  value := some tag.2.1
  label := some (String.ofList (titled false (tag.2.1.toList.map fun c => if c = '-' then ' ' else c)))
  score := tag.2.2 / 100
  depth := 2
  path := ["baseline:" ++ concept, taxonomyNode tag.1 tag.2.1]

/-- The key of the sort. -/
def baselineKey (s : Signal) : ℚ ×ₗ String ×ₗ String :=
  toLex (-s.score, toLex (s.field.getD "", s.value.getD ""))

def baselineContextSignals (texts : Texts) (rawQuery : String) (fields : List Catalogue.MetadataField) :
    List Signal :=
  ((indianContexts.filter fun x => texts.hasWord x.1 (normalizedQuery texts rawQuery)).flatMap fun x =>
    (x.2.filter fun tag => tag.2.1 ∈ optionKeys fields tag.1).map (contextSignal x.1)).insertionSort
      fun a b => baselineKey a ≤ baselineKey b

end Reconciler

end Stylme
