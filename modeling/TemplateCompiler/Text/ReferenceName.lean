/-! The named character references that are understood, with the code points they stand for. A name
without its semicolon is the short form that browsers still read. -/

namespace TemplateCompiler.Text

def referenceNames : List (String × Nat) :=
  [("amp;", 0x26), ("amp", 0x26), ("AMP;", 0x26), ("AMP", 0x26), ("lt;", 0x3c), ("lt", 0x3c),
   ("LT;", 0x3c), ("LT", 0x3c), ("gt;", 0x3e), ("gt", 0x3e), ("GT;", 0x3e), ("GT", 0x3e),
   ("quot;", 0x22), ("quot", 0x22), ("QUOT;", 0x22), ("QUOT", 0x22), ("apos;", 0x27),
   ("nbsp;", 0xa0), ("nbsp", 0xa0), ("copy;", 0xa9), ("copy", 0xa9), ("COPY;", 0xa9),
   ("reg;", 0xae), ("reg", 0xae), ("REG;", 0xae), ("trade;", 0x2122), ("TRADE;", 0x2122),
   ("shy;", 0xad), ("shy", 0xad), ("deg;", 0xb0), ("deg", 0xb0), ("plusmn;", 0xb1),
   ("plusmn", 0xb1), ("times;", 0xd7), ("times", 0xd7), ("divide;", 0xf7), ("divide", 0xf7),
   ("micro;", 0xb5), ("micro", 0xb5), ("middot;", 0xb7), ("middot", 0xb7), ("para;", 0xb6),
   ("para", 0xb6), ("sect;", 0xa7), ("sect", 0xa7), ("laquo;", 0xab), ("laquo", 0xab),
   ("raquo;", 0xbb), ("raquo", 0xbb), ("iexcl;", 0xa1), ("iexcl", 0xa1), ("iquest;", 0xbf),
   ("iquest", 0xbf), ("cent;", 0xa2), ("cent", 0xa2), ("pound;", 0xa3), ("pound", 0xa3),
   ("yen;", 0xa5), ("yen", 0xa5), ("euro;", 0x20ac), ("curren;", 0xa4), ("curren", 0xa4),
   ("frac12;", 0xbd), ("frac12", 0xbd), ("frac14;", 0xbc), ("frac14", 0xbc), ("frac34;", 0xbe),
   ("frac34", 0xbe), ("sup1;", 0xb9), ("sup1", 0xb9), ("sup2;", 0xb2), ("sup2", 0xb2),
   ("sup3;", 0xb3), ("sup3", 0xb3), ("ndash;", 0x2013), ("mdash;", 0x2014), ("lsquo;", 0x2018),
   ("rsquo;", 0x2019), ("sbquo;", 0x201a), ("ldquo;", 0x201c), ("rdquo;", 0x201d),
   ("bdquo;", 0x201e), ("dagger;", 0x2020), ("Dagger;", 0x2021), ("bull;", 0x2022),
   ("hellip;", 0x2026), ("permil;", 0x2030), ("prime;", 0x2032), ("Prime;", 0x2033),
   ("lsaquo;", 0x2039), ("rsaquo;", 0x203a), ("ensp;", 0x2002), ("emsp;", 0x2003),
   ("thinsp;", 0x2009), ("zwnj;", 0x200c), ("zwj;", 0x200d), ("lrm;", 0x200e), ("rlm;", 0x200f),
   ("larr;", 0x2190), ("uarr;", 0x2191), ("rarr;", 0x2192), ("darr;", 0x2193), ("harr;", 0x2194),
   ("lArr;", 0x21d0), ("rArr;", 0x21d2), ("hArr;", 0x21d4), ("forall;", 0x2200),
   ("part;", 0x2202), ("exist;", 0x2203), ("empty;", 0x2205), ("nabla;", 0x2207),
   ("isin;", 0x2208), ("notin;", 0x2209), ("sum;", 0x2211), ("minus;", 0x2212),
   ("radic;", 0x221a), ("infin;", 0x221e), ("and;", 0x2227), ("or;", 0x2228), ("cap;", 0x2229),
   ("cup;", 0x222a), ("asymp;", 0x2248), ("ne;", 0x2260), ("equiv;", 0x2261), ("le;", 0x2264),
   ("ge;", 0x2265), ("alpha;", 0x3b1), ("beta;", 0x3b2), ("gamma;", 0x3b3), ("delta;", 0x3b4),
   ("epsilon;", 0x3b5), ("lambda;", 0x3bb), ("mu;", 0x3bc), ("pi;", 0x3c0), ("sigma;", 0x3c3),
   ("omega;", 0x3c9), ("Omega;", 0x3a9), ("hearts;", 0x2665), ("spades;", 0x2660),
   ("clubs;", 0x2663), ("diams;", 0x2666), ("check;", 0x2713), ("star;", 0x2606),
   ("starf;", 0x2605), ("Tab;", 0x9), ("NewLine;", 0xa), ("excl;", 0x21), ("num;", 0x23),
   ("dollar;", 0x24), ("percnt;", 0x25), ("lpar;", 0x28), ("rpar;", 0x29), ("ast;", 0x2a),
   ("plus;", 0x2b), ("comma;", 0x2c), ("period;", 0x2e), ("sol;", 0x2f), ("colon;", 0x3a),
   ("semi;", 0x3b), ("equals;", 0x3d), ("quest;", 0x3f), ("commat;", 0x40), ("lsqb;", 0x5b),
   ("bsol;", 0x5c), ("rsqb;", 0x5d), ("lowbar;", 0x5f), ("grave;", 0x60), ("lcub;", 0x7b),
   ("verbar;", 0x7c), ("rcub;", 0x7d), ("Agrave;", 0xc0), ("Aacute;", 0xc1), ("Auml;", 0xc4),
   ("Aring;", 0xc5), ("Ccedil;", 0xc7), ("Eacute;", 0xc9), ("Ouml;", 0xd6), ("Uuml;", 0xdc),
   ("szlig;", 0xdf), ("agrave;", 0xe0), ("aacute;", 0xe1), ("auml;", 0xe4), ("aring;", 0xe5),
   ("ccedil;", 0xe7), ("egrave;", 0xe8), ("eacute;", 0xe9), ("ntilde;", 0xf1), ("ouml;", 0xf6),
   ("uuml;", 0xfc)]

private def longer (first second : Option (List Char × Char)) : Option (List Char × Char) :=
  match first, second with
  | none, other => other
  | other, none => other
  | some (a, x), some (b, y) => if a.length < b.length then some (b, y) else some (a, x)

def longestName? (text : List Char) : Option (List Char × Char) :=
  referenceNames.foldl
    (fun best entry =>
      let name := entry.1.toList
      if name.isPrefixOf text then longer best (some (name, Char.ofNat entry.2)) else best)
    none

private theorem longer_cases (first second : Option (List Char × Char)) :
    longer first second = first ∨ longer first second = second := by
  unfold longer
  split
  · exact .inr rfl
  · exact .inl rfl
  · split
    · exact .inr rfl
    · exact .inl rfl

theorem mem_of_longestName? {text name : List Char} {value : Char}
    (longest : longestName? text = some (name, value)) :
    (∃ entry ∈ referenceNames, entry.1.toList = name) ∧ name.isPrefixOf text = true := by
  revert longest
  unfold longestName?
  refine List.foldlRecOn (motive := fun best => best = some (name, value) → _) referenceNames _ ?_ ?_
  · intro none
    cases none
  · intro best kept entry member found
    simp only at found
    split at found
    · next starts =>
      rcases longer_cases best (some (entry.1.toList, Char.ofNat entry.2)) with same | same
      · exact kept (same ▸ found)
      · rw [same, Option.some.injEq, Prod.mk.injEq] at found
        exact ⟨⟨entry, member, found.1⟩, found.1 ▸ starts⟩
    · exact kept found

end TemplateCompiler.Text
