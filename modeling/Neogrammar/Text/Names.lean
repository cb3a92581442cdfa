import Neogrammar.Text.Ranges

/-!
# Names of characters

The names of the alphabetic blocks that phonetic writing draws on (Latin, phonetic extensions,
modifiers, marks, Greek, Cyrillic), of general punctuation and arrows, and of the controls.
Hangul syllables and unified ideographs have computed names.
-/
namespace Neogrammar.Text

/-- Entries `code:shared:words`: a name starts with as many words of the name before it as
`shared` says. -/
def nameText : String :=
  "20:0:SPACE;21:0:EXCLAMATION MARK;22:0:QUOTATION MARK;23:0:NUMBER SIGN;24:0:DOLLAR SIGN;
  25:0:PERCENT SIGN;26:0:AMPERSAND;27:0:APOSTROPHE;28:0:LEFT PARENTHESIS;29:0:RIGHT PARENTHESIS;
  2A:0:ASTERISK;2B:0:PLUS SIGN;2C:0:COMMA;2D:0:HYPHEN-MINUS;2E:0:FULL STOP;2F:0:SOLIDUS;
  30:0:DIGIT ZERO;31:1:ONE;32:1:TWO;33:1:THREE;34:1:FOUR;35:1:FIVE;36:1:SIX;37:1:SEVEN;
  38:1:EIGHT;39:1:NINE;3A:0:COLON;3B:0:SEMICOLON;3C:0:LESS-THAN SIGN;3D:0:EQUALS SIGN;
  3E:0:GREATER-THAN SIGN;3F:0:QUESTION MARK;40:0:COMMERCIAL AT;41:0:LATIN CAPITAL LETTER A;
  42:3:B;43:3:C;44:3:D;45:3:E;46:3:F;47:3:G;48:3:H;49:3:I;4A:3:J;4B:3:K;4C:3:L;4D:3:M;4E:3:N;
  4F:3:O;50:3:P;51:3:Q;52:3:R;53:3:S;54:3:T;55:3:U;56:3:V;57:3:W;58:3:X;59:3:Y;5A:3:Z;
  5B:0:LEFT SQUARE BRACKET;5C:0:REVERSE SOLIDUS;5D:0:RIGHT SQUARE BRACKET;
  5E:0:CIRCUMFLEX ACCENT;5F:0:LOW LINE;60:0:GRAVE ACCENT;61:0:LATIN SMALL LETTER A;62:3:B;
  63:3:C;64:3:D;65:3:E;66:3:F;67:3:G;68:3:H;69:3:I;6A:3:J;6B:3:K;6C:3:L;6D:3:M;6E:3:N;6F:3:O;
  70:3:P;71:3:Q;72:3:R;73:3:S;74:3:T;75:3:U;76:3:V;77:3:W;78:3:X;79:3:Y;7A:3:Z;
  7B:0:LEFT CURLY BRACKET;7C:0:VERTICAL LINE;7D:0:RIGHT CURLY BRACKET;7E:0:TILDE;
  A0:0:NO-BREAK SPACE;A1:0:INVERTED EXCLAMATION MARK;A2:0:CENT SIGN;A3:0:POUND SIGN;
  A4:0:CURRENCY SIGN;A5:0:YEN SIGN;A6:0:BROKEN BAR;A7:0:SECTION SIGN;A8:0:DIAERESIS;
  A9:0:COPYRIGHT SIGN;AA:0:FEMININE ORDINAL INDICATOR;
  AB:0:LEFT-POINTING DOUBLE ANGLE QUOTATION MARK;AC:0:NOT SIGN;AD:0:SOFT HYPHEN;
  AE:0:REGISTERED SIGN;AF:0:MACRON;B0:0:DEGREE SIGN;B1:0:PLUS-MINUS SIGN;B2:0:SUPERSCRIPT TWO;
  B3:1:THREE;B4:0:ACUTE ACCENT;B5:0:MICRO SIGN;B6:0:PILCROW SIGN;B7:0:MIDDLE DOT;B8:0:CEDILLA;
  B9:0:SUPERSCRIPT ONE;BA:0:MASCULINE ORDINAL INDICATOR;
  BB:0:RIGHT-POINTING DOUBLE ANGLE QUOTATION MARK;BC:0:VULGAR FRACTION ONE QUARTER;BD:3:HALF;
  BE:2:THREE QUARTERS;BF:0:INVERTED QUESTION MARK;C0:0:LATIN CAPITAL LETTER A WITH GRAVE;
  C1:5:ACUTE;C2:5:CIRCUMFLEX;C3:5:TILDE;C4:5:DIAERESIS;C5:5:RING ABOVE;C6:3:AE;
  C7:3:C WITH CEDILLA;C8:3:E WITH GRAVE;C9:5:ACUTE;CA:5:CIRCUMFLEX;CB:5:DIAERESIS;
  CC:3:I WITH GRAVE;CD:5:ACUTE;CE:5:CIRCUMFLEX;CF:5:DIAERESIS;D0:3:ETH;D1:3:N WITH TILDE;
  D2:3:O WITH GRAVE;D3:5:ACUTE;D4:5:CIRCUMFLEX;D5:5:TILDE;D6:5:DIAERESIS;
  D7:0:MULTIPLICATION SIGN;D8:0:LATIN CAPITAL LETTER O WITH STROKE;D9:3:U WITH GRAVE;DA:5:ACUTE;
  DB:5:CIRCUMFLEX;DC:5:DIAERESIS;DD:3:Y WITH ACUTE;DE:3:THORN;DF:1:SMALL LETTER SHARP S;
  E0:3:A WITH GRAVE;E1:5:ACUTE;E2:5:CIRCUMFLEX;E3:5:TILDE;E4:5:DIAERESIS;E5:5:RING ABOVE;
  E6:3:AE;E7:3:C WITH CEDILLA;E8:3:E WITH GRAVE;E9:5:ACUTE;EA:5:CIRCUMFLEX;EB:5:DIAERESIS;
  EC:3:I WITH GRAVE;ED:5:ACUTE;EE:5:CIRCUMFLEX;EF:5:DIAERESIS;F0:3:ETH;F1:3:N WITH TILDE;
  F2:3:O WITH GRAVE;F3:5:ACUTE;F4:5:CIRCUMFLEX;F5:5:TILDE;F6:5:DIAERESIS;F7:0:DIVISION SIGN;
  F8:0:LATIN SMALL LETTER O WITH STROKE;F9:3:U WITH GRAVE;FA:5:ACUTE;FB:5:CIRCUMFLEX;
  FC:5:DIAERESIS;FD:3:Y WITH ACUTE;FE:3:THORN;FF:3:Y WITH DIAERESIS;
  100:1:CAPITAL LETTER A WITH MACRON;101:1:SMALL LETTER A WITH MACRON;
  102:1:CAPITAL LETTER A WITH BREVE;103:1:SMALL LETTER A WITH BREVE;
  104:1:CAPITAL LETTER A WITH OGONEK;105:1:SMALL LETTER A WITH OGONEK;
  106:1:CAPITAL LETTER C WITH ACUTE;107:1:SMALL LETTER C WITH ACUTE;
  108:1:CAPITAL LETTER C WITH CIRCUMFLEX;109:1:SMALL LETTER C WITH CIRCUMFLEX;
  10A:1:CAPITAL LETTER C WITH DOT ABOVE;10B:1:SMALL LETTER C WITH DOT ABOVE;
  10C:1:CAPITAL LETTER C WITH CARON;10D:1:SMALL LETTER C WITH CARON;
  10E:1:CAPITAL LETTER D WITH CARON;10F:1:SMALL LETTER D WITH CARON;
  110:1:CAPITAL LETTER D WITH STROKE;111:1:SMALL LETTER D WITH STROKE;
  112:1:CAPITAL LETTER E WITH MACRON;113:1:SMALL LETTER E WITH MACRON;
  114:1:CAPITAL LETTER E WITH BREVE;115:1:SMALL LETTER E WITH BREVE;
  116:1:CAPITAL LETTER E WITH DOT ABOVE;117:1:SMALL LETTER E WITH DOT ABOVE;
  118:1:CAPITAL LETTER E WITH OGONEK;119:1:SMALL LETTER E WITH OGONEK;
  11A:1:CAPITAL LETTER E WITH CARON;11B:1:SMALL LETTER E WITH CARON;
  11C:1:CAPITAL LETTER G WITH CIRCUMFLEX;11D:1:SMALL LETTER G WITH CIRCUMFLEX;
  11E:1:CAPITAL LETTER G WITH BREVE;11F:1:SMALL LETTER G WITH BREVE;
  120:1:CAPITAL LETTER G WITH DOT ABOVE;121:1:SMALL LETTER G WITH DOT ABOVE;
  122:1:CAPITAL LETTER G WITH CEDILLA;123:1:SMALL LETTER G WITH CEDILLA;
  124:1:CAPITAL LETTER H WITH CIRCUMFLEX;125:1:SMALL LETTER H WITH CIRCUMFLEX;
  126:1:CAPITAL LETTER H WITH STROKE;127:1:SMALL LETTER H WITH STROKE;
  128:1:CAPITAL LETTER I WITH TILDE;129:1:SMALL LETTER I WITH TILDE;
  12A:1:CAPITAL LETTER I WITH MACRON;12B:1:SMALL LETTER I WITH MACRON;
  12C:1:CAPITAL LETTER I WITH BREVE;12D:1:SMALL LETTER I WITH BREVE;
  12E:1:CAPITAL LETTER I WITH OGONEK;12F:1:SMALL LETTER I WITH OGONEK;
  130:1:CAPITAL LETTER I WITH DOT ABOVE;131:1:SMALL LETTER DOTLESS I;132:1:CAPITAL LIGATURE IJ;
  133:1:SMALL LIGATURE IJ;134:1:CAPITAL LETTER J WITH CIRCUMFLEX;
  135:1:SMALL LETTER J WITH CIRCUMFLEX;136:1:CAPITAL LETTER K WITH CEDILLA;
  137:1:SMALL LETTER K WITH CEDILLA;138:3:KRA;139:1:CAPITAL LETTER L WITH ACUTE;
  13A:1:SMALL LETTER L WITH ACUTE;13B:1:CAPITAL LETTER L WITH CEDILLA;
  13C:1:SMALL LETTER L WITH CEDILLA;13D:1:CAPITAL LETTER L WITH CARON;
  13E:1:SMALL LETTER L WITH CARON;13F:1:CAPITAL LETTER L WITH MIDDLE DOT;
  140:1:SMALL LETTER L WITH MIDDLE DOT;141:1:CAPITAL LETTER L WITH STROKE;
  142:1:SMALL LETTER L WITH STROKE;143:1:CAPITAL LETTER N WITH ACUTE;
  144:1:SMALL LETTER N WITH ACUTE;145:1:CAPITAL LETTER N WITH CEDILLA;
  146:1:SMALL LETTER N WITH CEDILLA;147:1:CAPITAL LETTER N WITH CARON;
  148:1:SMALL LETTER N WITH CARON;149:4:PRECEDED BY APOSTROPHE;14A:1:CAPITAL LETTER ENG;
  14B:1:SMALL LETTER ENG;14C:1:CAPITAL LETTER O WITH MACRON;14D:1:SMALL LETTER O WITH MACRON;
  14E:1:CAPITAL LETTER O WITH BREVE;14F:1:SMALL LETTER O WITH BREVE;
  150:1:CAPITAL LETTER O WITH DOUBLE ACUTE;151:1:SMALL LETTER O WITH DOUBLE ACUTE;
  152:1:CAPITAL LIGATURE OE;153:1:SMALL LIGATURE OE;154:1:CAPITAL LETTER R WITH ACUTE;
  155:1:SMALL LETTER R WITH ACUTE;156:1:CAPITAL LETTER R WITH CEDILLA;
  157:1:SMALL LETTER R WITH CEDILLA;158:1:CAPITAL LETTER R WITH CARON;
  159:1:SMALL LETTER R WITH CARON;15A:1:CAPITAL LETTER S WITH ACUTE;
  15B:1:SMALL LETTER S WITH ACUTE;15C:1:CAPITAL LETTER S WITH CIRCUMFLEX;
  15D:1:SMALL LETTER S WITH CIRCUMFLEX;15E:1:CAPITAL LETTER S WITH CEDILLA;
  15F:1:SMALL LETTER S WITH CEDILLA;160:1:CAPITAL LETTER S WITH CARON;
  161:1:SMALL LETTER S WITH CARON;162:1:CAPITAL LETTER T WITH CEDILLA;
  163:1:SMALL LETTER T WITH CEDILLA;164:1:CAPITAL LETTER T WITH CARON;
  165:1:SMALL LETTER T WITH CARON;166:1:CAPITAL LETTER T WITH STROKE;
  167:1:SMALL LETTER T WITH STROKE;168:1:CAPITAL LETTER U WITH TILDE;
  169:1:SMALL LETTER U WITH TILDE;16A:1:CAPITAL LETTER U WITH MACRON;
  16B:1:SMALL LETTER U WITH MACRON;16C:1:CAPITAL LETTER U WITH BREVE;
  16D:1:SMALL LETTER U WITH BREVE;16E:1:CAPITAL LETTER U WITH RING ABOVE;
  16F:1:SMALL LETTER U WITH RING ABOVE;170:1:CAPITAL LETTER U WITH DOUBLE ACUTE;
  171:1:SMALL LETTER U WITH DOUBLE ACUTE;172:1:CAPITAL LETTER U WITH OGONEK;
  173:1:SMALL LETTER U WITH OGONEK;174:1:CAPITAL LETTER W WITH CIRCUMFLEX;
  175:1:SMALL LETTER W WITH CIRCUMFLEX;176:1:CAPITAL LETTER Y WITH CIRCUMFLEX;
  177:1:SMALL LETTER Y WITH CIRCUMFLEX;178:1:CAPITAL LETTER Y WITH DIAERESIS;179:3:Z WITH ACUTE;
  17A:1:SMALL LETTER Z WITH ACUTE;17B:1:CAPITAL LETTER Z WITH DOT ABOVE;
  17C:1:SMALL LETTER Z WITH DOT ABOVE;17D:1:CAPITAL LETTER Z WITH CARON;
  17E:1:SMALL LETTER Z WITH CARON;17F:3:LONG S;180:3:B WITH STROKE;
  181:1:CAPITAL LETTER B WITH HOOK;182:5:TOPBAR;183:1:SMALL LETTER B WITH TOPBAR;
  184:1:CAPITAL LETTER TONE SIX;185:1:SMALL LETTER TONE SIX;186:1:CAPITAL LETTER OPEN O;
  187:3:C WITH HOOK;188:1:SMALL LETTER C WITH HOOK;189:1:CAPITAL LETTER AFRICAN D;
  18A:3:D WITH HOOK;18B:5:TOPBAR;18C:1:SMALL LETTER D WITH TOPBAR;18D:3:TURNED DELTA;
  18E:1:CAPITAL LETTER REVERSED E;18F:3:SCHWA;190:3:OPEN E;191:3:F WITH HOOK;
  192:1:SMALL LETTER F WITH HOOK;193:1:CAPITAL LETTER G WITH HOOK;194:3:GAMMA;
  195:1:SMALL LETTER HV;196:1:CAPITAL LETTER IOTA;197:3:I WITH STROKE;198:3:K WITH HOOK;
  199:1:SMALL LETTER K WITH HOOK;19A:3:L WITH BAR;19B:3:LAMBDA WITH STROKE;
  19C:1:CAPITAL LETTER TURNED M;19D:3:N WITH LEFT HOOK;19E:1:SMALL LETTER N WITH LONG RIGHT LEG;
  19F:1:CAPITAL LETTER O WITH MIDDLE TILDE;1A0:5:HORN;1A1:1:SMALL LETTER O WITH HORN;
  1A2:1:CAPITAL LETTER OI;1A3:1:SMALL LETTER OI;1A4:1:CAPITAL LETTER P WITH HOOK;
  1A5:1:SMALL LETTER P WITH HOOK;1A6:1:LETTER YR;1A7:1:CAPITAL LETTER TONE TWO;
  1A8:1:SMALL LETTER TONE TWO;1A9:1:CAPITAL LETTER ESH;1AA:1:LETTER REVERSED ESH LOOP;
  1AB:1:SMALL LETTER T WITH PALATAL HOOK;1AC:1:CAPITAL LETTER T WITH HOOK;
  1AD:1:SMALL LETTER T WITH HOOK;1AE:1:CAPITAL LETTER T WITH RETROFLEX HOOK;1AF:3:U WITH HORN;
  1B0:1:SMALL LETTER U WITH HORN;1B1:1:CAPITAL LETTER UPSILON;1B2:3:V WITH HOOK;
  1B3:3:Y WITH HOOK;1B4:1:SMALL LETTER Y WITH HOOK;1B5:1:CAPITAL LETTER Z WITH STROKE;
  1B6:1:SMALL LETTER Z WITH STROKE;1B7:1:CAPITAL LETTER EZH;1B8:4:REVERSED;
  1B9:1:SMALL LETTER EZH REVERSED;1BA:4:WITH TAIL;1BB:1:LETTER TWO WITH STROKE;
  1BC:1:CAPITAL LETTER TONE FIVE;1BD:1:SMALL LETTER TONE FIVE;
  1BE:1:LETTER INVERTED GLOTTAL STOP WITH STROKE;1BF:2:WYNN;1C0:2:DENTAL CLICK;
  1C1:2:LATERAL CLICK;1C2:2:ALVEOLAR CLICK;1C3:2:RETROFLEX CLICK;
  1C4:1:CAPITAL LETTER DZ WITH CARON;1C5:3:D WITH SMALL LETTER Z WITH CARON;
  1C6:1:SMALL LETTER DZ WITH CARON;1C7:1:CAPITAL LETTER LJ;1C8:3:L WITH SMALL LETTER J;
  1C9:1:SMALL LETTER LJ;1CA:1:CAPITAL LETTER NJ;1CB:3:N WITH SMALL LETTER J;
  1CC:1:SMALL LETTER NJ;1CD:1:CAPITAL LETTER A WITH CARON;1CE:1:SMALL LETTER A WITH CARON;
  1CF:1:CAPITAL LETTER I WITH CARON;1D0:1:SMALL LETTER I WITH CARON;
  1D1:1:CAPITAL LETTER O WITH CARON;1D2:1:SMALL LETTER O WITH CARON;
  1D3:1:CAPITAL LETTER U WITH CARON;1D4:1:SMALL LETTER U WITH CARON;
  1D5:1:CAPITAL LETTER U WITH DIAERESIS AND MACRON;
  1D6:1:SMALL LETTER U WITH DIAERESIS AND MACRON;
  1D7:1:CAPITAL LETTER U WITH DIAERESIS AND ACUTE;1D8:1:SMALL LETTER U WITH DIAERESIS AND ACUTE;
  1D9:1:CAPITAL LETTER U WITH DIAERESIS AND CARON;1DA:1:SMALL LETTER U WITH DIAERESIS AND CARON;
  1DB:1:CAPITAL LETTER U WITH DIAERESIS AND GRAVE;1DC:1:SMALL LETTER U WITH DIAERESIS AND GRAVE;
  1DD:3:TURNED E;1DE:1:CAPITAL LETTER A WITH DIAERESIS AND MACRON;
  1DF:1:SMALL LETTER A WITH DIAERESIS AND MACRON;
  1E0:1:CAPITAL LETTER A WITH DOT ABOVE AND MACRON;
  1E1:1:SMALL LETTER A WITH DOT ABOVE AND MACRON;1E2:1:CAPITAL LETTER AE WITH MACRON;
  1E3:1:SMALL LETTER AE WITH MACRON;1E4:1:CAPITAL LETTER G WITH STROKE;
  1E5:1:SMALL LETTER G WITH STROKE;1E6:1:CAPITAL LETTER G WITH CARON;
  1E7:1:SMALL LETTER G WITH CARON;1E8:1:CAPITAL LETTER K WITH CARON;
  1E9:1:SMALL LETTER K WITH CARON;1EA:1:CAPITAL LETTER O WITH OGONEK;
  1EB:1:SMALL LETTER O WITH OGONEK;1EC:1:CAPITAL LETTER O WITH OGONEK AND MACRON;
  1ED:1:SMALL LETTER O WITH OGONEK AND MACRON;1EE:1:CAPITAL LETTER EZH WITH CARON;
  1EF:1:SMALL LETTER EZH WITH CARON;1F0:3:J WITH CARON;1F1:1:CAPITAL LETTER DZ;
  1F2:3:D WITH SMALL LETTER Z;1F3:1:SMALL LETTER DZ;1F4:1:CAPITAL LETTER G WITH ACUTE;
  1F5:1:SMALL LETTER G WITH ACUTE;1F6:1:CAPITAL LETTER HWAIR;1F7:3:WYNN;1F8:3:N WITH GRAVE;
  1F9:1:SMALL LETTER N WITH GRAVE;1FA:1:CAPITAL LETTER A WITH RING ABOVE AND ACUTE;
  1FB:1:SMALL LETTER A WITH RING ABOVE AND ACUTE;1FC:1:CAPITAL LETTER AE WITH ACUTE;
  1FD:1:SMALL LETTER AE WITH ACUTE;1FE:1:CAPITAL LETTER O WITH STROKE AND ACUTE;
  1FF:1:SMALL LETTER O WITH STROKE AND ACUTE;200:1:CAPITAL LETTER A WITH DOUBLE GRAVE;
  201:1:SMALL LETTER A WITH DOUBLE GRAVE;202:1:CAPITAL LETTER A WITH INVERTED BREVE;
  203:1:SMALL LETTER A WITH INVERTED BREVE;204:1:CAPITAL LETTER E WITH DOUBLE GRAVE;
  205:1:SMALL LETTER E WITH DOUBLE GRAVE;206:1:CAPITAL LETTER E WITH INVERTED BREVE;
  207:1:SMALL LETTER E WITH INVERTED BREVE;208:1:CAPITAL LETTER I WITH DOUBLE GRAVE;
  209:1:SMALL LETTER I WITH DOUBLE GRAVE;20A:1:CAPITAL LETTER I WITH INVERTED BREVE;
  20B:1:SMALL LETTER I WITH INVERTED BREVE;20C:1:CAPITAL LETTER O WITH DOUBLE GRAVE;
  20D:1:SMALL LETTER O WITH DOUBLE GRAVE;20E:1:CAPITAL LETTER O WITH INVERTED BREVE;
  20F:1:SMALL LETTER O WITH INVERTED BREVE;210:1:CAPITAL LETTER R WITH DOUBLE GRAVE;
  211:1:SMALL LETTER R WITH DOUBLE GRAVE;212:1:CAPITAL LETTER R WITH INVERTED BREVE;
  213:1:SMALL LETTER R WITH INVERTED BREVE;214:1:CAPITAL LETTER U WITH DOUBLE GRAVE;
  215:1:SMALL LETTER U WITH DOUBLE GRAVE;216:1:CAPITAL LETTER U WITH INVERTED BREVE;
  217:1:SMALL LETTER U WITH INVERTED BREVE;218:1:CAPITAL LETTER S WITH COMMA BELOW;
  219:1:SMALL LETTER S WITH COMMA BELOW;21A:1:CAPITAL LETTER T WITH COMMA BELOW;
  21B:1:SMALL LETTER T WITH COMMA BELOW;21C:1:CAPITAL LETTER YOGH;21D:1:SMALL LETTER YOGH;
  21E:1:CAPITAL LETTER H WITH CARON;21F:1:SMALL LETTER H WITH CARON;
  220:1:CAPITAL LETTER N WITH LONG RIGHT LEG;221:1:SMALL LETTER D WITH CURL;
  222:1:CAPITAL LETTER OU;223:1:SMALL LETTER OU;224:1:CAPITAL LETTER Z WITH HOOK;
  225:1:SMALL LETTER Z WITH HOOK;226:1:CAPITAL LETTER A WITH DOT ABOVE;
  227:1:SMALL LETTER A WITH DOT ABOVE;228:1:CAPITAL LETTER E WITH CEDILLA;
  229:1:SMALL LETTER E WITH CEDILLA;22A:1:CAPITAL LETTER O WITH DIAERESIS AND MACRON;
  22B:1:SMALL LETTER O WITH DIAERESIS AND MACRON;22C:1:CAPITAL LETTER O WITH TILDE AND MACRON;
  22D:1:SMALL LETTER O WITH TILDE AND MACRON;22E:1:CAPITAL LETTER O WITH DOT ABOVE;
  22F:1:SMALL LETTER O WITH DOT ABOVE;230:1:CAPITAL LETTER O WITH DOT ABOVE AND MACRON;
  231:1:SMALL LETTER O WITH DOT ABOVE AND MACRON;232:1:CAPITAL LETTER Y WITH MACRON;
  233:1:SMALL LETTER Y WITH MACRON;234:3:L WITH CURL;235:3:N WITH CURL;236:3:T WITH CURL;
  237:3:DOTLESS J;238:3:DB DIGRAPH;239:3:QP DIGRAPH;23A:1:CAPITAL LETTER A WITH STROKE;
  23B:3:C WITH STROKE;23C:1:SMALL LETTER C WITH STROKE;23D:1:CAPITAL LETTER L WITH BAR;
  23E:3:T WITH DIAGONAL STROKE;23F:1:SMALL LETTER S WITH SWASH TAIL;240:3:Z WITH SWASH TAIL;
  241:1:CAPITAL LETTER GLOTTAL STOP;242:1:SMALL LETTER GLOTTAL STOP;
  243:1:CAPITAL LETTER B WITH STROKE;244:3:U BAR;245:3:TURNED V;246:3:E WITH STROKE;
  247:1:SMALL LETTER E WITH STROKE;248:1:CAPITAL LETTER J WITH STROKE;
  249:1:SMALL LETTER J WITH STROKE;24A:1:CAPITAL LETTER SMALL Q WITH HOOK TAIL;
  24B:1:SMALL LETTER Q WITH HOOK TAIL;24C:1:CAPITAL LETTER R WITH STROKE;
  24D:1:SMALL LETTER R WITH STROKE;24E:1:CAPITAL LETTER Y WITH STROKE;
  24F:1:SMALL LETTER Y WITH STROKE;250:3:TURNED A;251:3:ALPHA;252:3:TURNED ALPHA;
  253:3:B WITH HOOK;254:3:OPEN O;255:3:C WITH CURL;256:3:D WITH TAIL;257:5:HOOK;
  258:3:REVERSED E;259:3:SCHWA;25A:4:WITH HOOK;25B:3:OPEN E;25C:3:REVERSED OPEN E;
  25D:6:WITH HOOK;25E:3:CLOSED REVERSED OPEN E;25F:3:DOTLESS J WITH STROKE;260:3:G WITH HOOK;
  261:3:SCRIPT G;262:1:LETTER SMALL CAPITAL G;263:1:SMALL LETTER GAMMA;264:3:RAMS HORN;
  265:3:TURNED H;266:3:H WITH HOOK;267:3:HENG WITH HOOK;268:3:I WITH STROKE;269:3:IOTA;
  26A:1:LETTER SMALL CAPITAL I;26B:1:SMALL LETTER L WITH MIDDLE TILDE;26C:5:BELT;
  26D:5:RETROFLEX HOOK;26E:3:LEZH;26F:3:TURNED M;270:5:WITH LONG LEG;271:3:M WITH HOOK;
  272:3:N WITH LEFT HOOK;273:5:RETROFLEX HOOK;274:1:LETTER SMALL CAPITAL N;
  275:1:SMALL LETTER BARRED O;276:1:LETTER SMALL CAPITAL OE;277:1:SMALL LETTER CLOSED OMEGA;
  278:3:PHI;279:3:TURNED R;27A:5:WITH LONG LEG;27B:6:HOOK;27C:3:R WITH LONG LEG;27D:5:TAIL;
  27E:5:FISHHOOK;27F:3:REVERSED R WITH FISHHOOK;280:1:LETTER SMALL CAPITAL R;281:4:INVERTED R;
  282:1:SMALL LETTER S WITH HOOK;283:3:ESH;284:3:DOTLESS J WITH STROKE AND HOOK;
  285:3:SQUAT REVERSED ESH;286:3:ESH WITH CURL;287:3:TURNED T;288:3:T WITH RETROFLEX HOOK;
  289:3:U BAR;28A:3:UPSILON;28B:3:V WITH HOOK;28C:3:TURNED V;28D:4:W;28E:4:Y;
  28F:1:LETTER SMALL CAPITAL Y;290:1:SMALL LETTER Z WITH RETROFLEX HOOK;291:5:CURL;292:3:EZH;
  293:4:WITH CURL;294:1:LETTER GLOTTAL STOP;295:2:PHARYNGEAL VOICED FRICATIVE;
  296:2:INVERTED GLOTTAL STOP;297:2:STRETCHED C;298:2:BILABIAL CLICK;299:2:SMALL CAPITAL B;
  29A:1:SMALL LETTER CLOSED OPEN E;29B:1:LETTER SMALL CAPITAL G WITH HOOK;29C:4:H;
  29D:1:SMALL LETTER J WITH CROSSED-TAIL;29E:3:TURNED K;29F:1:LETTER SMALL CAPITAL L;
  2A0:1:SMALL LETTER Q WITH HOOK;2A1:1:LETTER GLOTTAL STOP WITH STROKE;
  2A2:2:REVERSED GLOTTAL STOP WITH STROKE;2A3:1:SMALL LETTER DZ DIGRAPH;2A4:3:DEZH DIGRAPH;
  2A5:3:DZ DIGRAPH WITH CURL;2A6:3:TS DIGRAPH;2A7:3:TESH DIGRAPH;2A8:3:TC DIGRAPH WITH CURL;
  2A9:3:FENG DIGRAPH;2AA:3:LS DIGRAPH;2AB:3:LZ DIGRAPH;2AC:1:LETTER BILABIAL PERCUSSIVE;
  2AD:2:BIDENTAL PERCUSSIVE;2AE:1:SMALL LETTER TURNED H WITH FISHHOOK;2AF:7:AND TAIL;
  2B0:0:MODIFIER LETTER SMALL H;2B1:4:WITH HOOK;2B2:3:J;2B3:3:R;2B4:3:TURNED R;2B5:5:WITH HOOK;
  2B6:3:CAPITAL INVERTED R;2B7:3:W;2B8:3:Y;2B9:2:PRIME;2BA:2:DOUBLE PRIME;2BB:2:TURNED COMMA;
  2BC:2:APOSTROPHE;2BD:2:REVERSED COMMA;2BE:2:RIGHT HALF RING;2BF:2:LEFT HALF RING;
  2C0:2:GLOTTAL STOP;2C1:2:REVERSED GLOTTAL STOP;2C2:2:LEFT ARROWHEAD;2C3:2:RIGHT ARROWHEAD;
  2C4:2:UP ARROWHEAD;2C5:2:DOWN ARROWHEAD;2C6:2:CIRCUMFLEX ACCENT;2C7:0:CARON;
  2C8:0:MODIFIER LETTER VERTICAL LINE;2C9:2:MACRON;2CA:2:ACUTE ACCENT;2CB:2:GRAVE ACCENT;
  2CC:2:LOW VERTICAL LINE;2CD:3:MACRON;2CE:3:GRAVE ACCENT;2CF:3:ACUTE ACCENT;
  2D0:2:TRIANGULAR COLON;2D1:2:HALF TRIANGULAR COLON;2D2:2:CENTRED RIGHT HALF RING;
  2D3:3:LEFT HALF RING;2D4:2:UP TACK;2D5:2:DOWN TACK;2D6:2:PLUS SIGN;2D7:2:MINUS SIGN;
  2D8:0:BREVE;2D9:0:DOT ABOVE;2DA:0:RING ABOVE;2DB:0:OGONEK;2DC:0:SMALL TILDE;
  2DD:0:DOUBLE ACUTE ACCENT;2DE:0:MODIFIER LETTER RHOTIC HOOK;2DF:2:CROSS ACCENT;
  2E0:2:SMALL GAMMA;2E1:3:L;2E2:3:S;2E3:3:X;2E4:3:REVERSED GLOTTAL STOP;
  2E5:2:EXTRA-HIGH TONE BAR;2E6:2:HIGH TONE BAR;2E7:2:MID TONE BAR;2E8:2:LOW TONE BAR;
  2E9:2:EXTRA-LOW TONE BAR;2EA:2:YIN DEPARTING TONE MARK;2EB:2:YANG DEPARTING TONE MARK;
  2EC:2:VOICING;2ED:2:UNASPIRATED;2EE:2:DOUBLE APOSTROPHE;2EF:2:LOW DOWN ARROWHEAD;
  2F0:3:UP ARROWHEAD;2F1:3:LEFT ARROWHEAD;2F2:3:RIGHT ARROWHEAD;2F3:3:RING;
  2F4:2:MIDDLE GRAVE ACCENT;2F5:3:DOUBLE GRAVE ACCENT;2F6:4:ACUTE ACCENT;2F7:2:LOW TILDE;
  2F8:2:RAISED COLON;2F9:2:BEGIN HIGH TONE;2FA:2:END HIGH TONE;2FB:2:BEGIN LOW TONE;
  2FC:2:END LOW TONE;2FD:2:SHELF;2FE:2:OPEN SHELF;2FF:2:LOW LEFT ARROW;
  300:0:COMBINING GRAVE ACCENT;301:1:ACUTE ACCENT;302:1:CIRCUMFLEX ACCENT;303:1:TILDE;
  304:1:MACRON;305:1:OVERLINE;306:1:BREVE;307:1:DOT ABOVE;308:1:DIAERESIS;309:1:HOOK ABOVE;
  30A:1:RING ABOVE;30B:1:DOUBLE ACUTE ACCENT;30C:1:CARON;30D:1:VERTICAL LINE ABOVE;
  30E:1:DOUBLE VERTICAL LINE ABOVE;30F:2:GRAVE ACCENT;310:1:CANDRABINDU;311:1:INVERTED BREVE;
  312:1:TURNED COMMA ABOVE;313:1:COMMA ABOVE;314:1:REVERSED COMMA ABOVE;315:1:COMMA ABOVE RIGHT;
  316:1:GRAVE ACCENT BELOW;317:1:ACUTE ACCENT BELOW;318:1:LEFT TACK BELOW;
  319:1:RIGHT TACK BELOW;31A:1:LEFT ANGLE ABOVE;31B:1:HORN;31C:1:LEFT HALF RING BELOW;
  31D:1:UP TACK BELOW;31E:1:DOWN TACK BELOW;31F:1:PLUS SIGN BELOW;320:1:MINUS SIGN BELOW;
  321:1:PALATALIZED HOOK BELOW;322:1:RETROFLEX HOOK BELOW;323:1:DOT BELOW;324:1:DIAERESIS BELOW;
  325:1:RING BELOW;326:1:COMMA BELOW;327:1:CEDILLA;328:1:OGONEK;329:1:VERTICAL LINE BELOW;
  32A:1:BRIDGE BELOW;32B:1:INVERTED DOUBLE ARCH BELOW;32C:1:CARON BELOW;
  32D:1:CIRCUMFLEX ACCENT BELOW;32E:1:BREVE BELOW;32F:1:INVERTED BREVE BELOW;330:1:TILDE BELOW;
  331:1:MACRON BELOW;332:1:LOW LINE;333:1:DOUBLE LOW LINE;334:1:TILDE OVERLAY;
  335:1:SHORT STROKE OVERLAY;336:1:LONG STROKE OVERLAY;337:1:SHORT SOLIDUS OVERLAY;
  338:1:LONG SOLIDUS OVERLAY;339:1:RIGHT HALF RING BELOW;33A:1:INVERTED BRIDGE BELOW;
  33B:1:SQUARE BELOW;33C:1:SEAGULL BELOW;33D:1:X ABOVE;33E:1:VERTICAL TILDE;
  33F:1:DOUBLE OVERLINE;340:1:GRAVE TONE MARK;341:1:ACUTE TONE MARK;342:1:GREEK PERISPOMENI;
  343:2:KORONIS;344:2:DIALYTIKA TONOS;345:2:YPOGEGRAMMENI;346:1:BRIDGE ABOVE;
  347:1:EQUALS SIGN BELOW;348:1:DOUBLE VERTICAL LINE BELOW;349:1:LEFT ANGLE BELOW;
  34A:1:NOT TILDE ABOVE;34B:1:HOMOTHETIC ABOVE;34C:1:ALMOST EQUAL TO ABOVE;
  34D:1:LEFT RIGHT ARROW BELOW;34E:1:UPWARDS ARROW BELOW;34F:1:GRAPHEME JOINER;
  350:1:RIGHT ARROWHEAD ABOVE;351:1:LEFT HALF RING ABOVE;352:1:FERMATA;353:1:X BELOW;
  354:1:LEFT ARROWHEAD BELOW;355:1:RIGHT ARROWHEAD BELOW;356:3:AND UP ARROWHEAD BELOW;
  357:2:HALF RING ABOVE;358:1:DOT ABOVE RIGHT;359:1:ASTERISK BELOW;35A:1:DOUBLE RING BELOW;
  35B:1:ZIGZAG ABOVE;35C:1:DOUBLE BREVE BELOW;35D:2:BREVE;35E:2:MACRON;35F:3:BELOW;360:2:TILDE;
  361:2:INVERTED BREVE;362:2:RIGHTWARDS ARROW BELOW;363:1:LATIN SMALL LETTER A;364:4:E;365:4:I;
  366:4:O;367:4:U;368:4:C;369:4:D;36A:4:H;36B:4:M;36C:4:R;36D:4:T;36E:4:V;36F:4:X;
  370:0:GREEK CAPITAL LETTER HETA;371:1:SMALL LETTER HETA;372:1:CAPITAL LETTER ARCHAIC SAMPI;
  373:1:SMALL LETTER ARCHAIC SAMPI;374:1:NUMERAL SIGN;375:1:LOWER NUMERAL SIGN;
  376:1:CAPITAL LETTER PAMPHYLIAN DIGAMMA;377:1:SMALL LETTER PAMPHYLIAN DIGAMMA;
  37A:1:YPOGEGRAMMENI;37B:1:SMALL REVERSED LUNATE SIGMA SYMBOL;37C:2:DOTTED LUNATE SIGMA SYMBOL;
  37D:2:REVERSED DOTTED LUNATE SIGMA SYMBOL;37E:1:QUESTION MARK;37F:1:CAPITAL LETTER YOT;
  384:1:TONOS;385:1:DIALYTIKA TONOS;386:1:CAPITAL LETTER ALPHA WITH TONOS;387:1:ANO TELEIA;
  388:1:CAPITAL LETTER EPSILON WITH TONOS;389:3:ETA WITH TONOS;38A:3:IOTA WITH TONOS;
  38C:3:OMICRON WITH TONOS;38E:3:UPSILON WITH TONOS;38F:3:OMEGA WITH TONOS;
  390:1:SMALL LETTER IOTA WITH DIALYTIKA AND TONOS;391:1:CAPITAL LETTER ALPHA;392:3:BETA;
  393:3:GAMMA;394:3:DELTA;395:3:EPSILON;396:3:ZETA;397:3:ETA;398:3:THETA;399:3:IOTA;39A:3:KAPPA;
  39B:3:LAMDA;39C:3:MU;39D:3:NU;39E:3:XI;39F:3:OMICRON;3A0:3:PI;3A1:3:RHO;3A3:3:SIGMA;3A4:3:TAU;
  3A5:3:UPSILON;3A6:3:PHI;3A7:3:CHI;3A8:3:PSI;3A9:3:OMEGA;3AA:3:IOTA WITH DIALYTIKA;
  3AB:3:UPSILON WITH DIALYTIKA;3AC:1:SMALL LETTER ALPHA WITH TONOS;3AD:3:EPSILON WITH TONOS;
  3AE:3:ETA WITH TONOS;3AF:3:IOTA WITH TONOS;3B0:3:UPSILON WITH DIALYTIKA AND TONOS;3B1:3:ALPHA;
  3B2:3:BETA;3B3:3:GAMMA;3B4:3:DELTA;3B5:3:EPSILON;3B6:3:ZETA;3B7:3:ETA;3B8:3:THETA;3B9:3:IOTA;
  3BA:3:KAPPA;3BB:3:LAMDA;3BC:3:MU;3BD:3:NU;3BE:3:XI;3BF:3:OMICRON;3C0:3:PI;3C1:3:RHO;
  3C2:3:FINAL SIGMA;3C3:3:SIGMA;3C4:3:TAU;3C5:3:UPSILON;3C6:3:PHI;3C7:3:CHI;3C8:3:PSI;
  3C9:3:OMEGA;3CA:3:IOTA WITH DIALYTIKA;3CB:3:UPSILON WITH DIALYTIKA;3CC:3:OMICRON WITH TONOS;
  3CD:3:UPSILON WITH TONOS;3CE:3:OMEGA WITH TONOS;3CF:1:CAPITAL KAI SYMBOL;3D0:1:BETA SYMBOL;
  3D1:1:THETA SYMBOL;3D2:1:UPSILON WITH HOOK SYMBOL;3D3:3:ACUTE AND HOOK SYMBOL;
  3D4:3:DIAERESIS AND HOOK SYMBOL;3D5:1:PHI SYMBOL;3D6:1:PI SYMBOL;3D7:1:KAI SYMBOL;
  3D8:1:LETTER ARCHAIC KOPPA;3D9:1:SMALL LETTER ARCHAIC KOPPA;3DA:1:LETTER STIGMA;
  3DB:1:SMALL LETTER STIGMA;3DC:1:LETTER DIGAMMA;3DD:1:SMALL LETTER DIGAMMA;3DE:1:LETTER KOPPA;
  3DF:1:SMALL LETTER KOPPA;3E0:1:LETTER SAMPI;3E1:1:SMALL LETTER SAMPI;
  3E2:0:COPTIC CAPITAL LETTER SHEI;3E3:1:SMALL LETTER SHEI;3E4:1:CAPITAL LETTER FEI;
  3E5:1:SMALL LETTER FEI;3E6:1:CAPITAL LETTER KHEI;3E7:1:SMALL LETTER KHEI;
  3E8:1:CAPITAL LETTER HORI;3E9:1:SMALL LETTER HORI;3EA:1:CAPITAL LETTER GANGIA;
  3EB:1:SMALL LETTER GANGIA;3EC:1:CAPITAL LETTER SHIMA;3ED:1:SMALL LETTER SHIMA;
  3EE:1:CAPITAL LETTER DEI;3EF:1:SMALL LETTER DEI;3F0:0:GREEK KAPPA SYMBOL;3F1:1:RHO SYMBOL;
  3F2:1:LUNATE SIGMA SYMBOL;3F3:1:LETTER YOT;3F4:1:CAPITAL THETA SYMBOL;
  3F5:1:LUNATE EPSILON SYMBOL;3F6:1:REVERSED LUNATE EPSILON SYMBOL;3F7:1:CAPITAL LETTER SHO;
  3F8:1:SMALL LETTER SHO;3F9:1:CAPITAL LUNATE SIGMA SYMBOL;3FA:2:LETTER SAN;
  3FB:1:SMALL LETTER SAN;3FC:1:RHO WITH STROKE SYMBOL;
  3FD:1:CAPITAL REVERSED LUNATE SIGMA SYMBOL;3FE:2:DOTTED LUNATE SIGMA SYMBOL;
  3FF:2:REVERSED DOTTED LUNATE SIGMA SYMBOL;400:0:CYRILLIC CAPITAL LETTER IE WITH GRAVE;
  401:3:IO;402:3:DJE;403:3:GJE;404:3:UKRAINIAN IE;405:3:DZE;406:3:BYELORUSSIAN-UKRAINIAN I;
  407:3:YI;408:3:JE;409:3:LJE;40A:3:NJE;40B:3:TSHE;40C:3:KJE;40D:3:I WITH GRAVE;40E:3:SHORT U;
  40F:3:DZHE;410:3:A;411:3:BE;412:3:VE;413:3:GHE;414:3:DE;415:3:IE;416:3:ZHE;417:3:ZE;418:3:I;
  419:3:SHORT I;41A:3:KA;41B:3:EL;41C:3:EM;41D:3:EN;41E:3:O;41F:3:PE;420:3:ER;421:3:ES;422:3:TE;
  423:3:U;424:3:EF;425:3:HA;426:3:TSE;427:3:CHE;428:3:SHA;429:3:SHCHA;42A:3:HARD SIGN;
  42B:3:YERU;42C:3:SOFT SIGN;42D:3:E;42E:3:YU;42F:3:YA;430:1:SMALL LETTER A;431:3:BE;432:3:VE;
  433:3:GHE;434:3:DE;435:3:IE;436:3:ZHE;437:3:ZE;438:3:I;439:3:SHORT I;43A:3:KA;43B:3:EL;
  43C:3:EM;43D:3:EN;43E:3:O;43F:3:PE;440:3:ER;441:3:ES;442:3:TE;443:3:U;444:3:EF;445:3:HA;
  446:3:TSE;447:3:CHE;448:3:SHA;449:3:SHCHA;44A:3:HARD SIGN;44B:3:YERU;44C:3:SOFT SIGN;44D:3:E;
  44E:3:YU;44F:3:YA;450:3:IE WITH GRAVE;451:3:IO;452:3:DJE;453:3:GJE;454:3:UKRAINIAN IE;
  455:3:DZE;456:3:BYELORUSSIAN-UKRAINIAN I;457:3:YI;458:3:JE;459:3:LJE;45A:3:NJE;45B:3:TSHE;
  45C:3:KJE;45D:3:I WITH GRAVE;45E:3:SHORT U;45F:3:DZHE;460:1:CAPITAL LETTER OMEGA;
  461:1:SMALL LETTER OMEGA;462:1:CAPITAL LETTER YAT;463:1:SMALL LETTER YAT;
  464:1:CAPITAL LETTER IOTIFIED E;465:1:SMALL LETTER IOTIFIED E;466:1:CAPITAL LETTER LITTLE YUS;
  467:1:SMALL LETTER LITTLE YUS;468:1:CAPITAL LETTER IOTIFIED LITTLE YUS;
  469:1:SMALL LETTER IOTIFIED LITTLE YUS;46A:1:CAPITAL LETTER BIG YUS;
  46B:1:SMALL LETTER BIG YUS;46C:1:CAPITAL LETTER IOTIFIED BIG YUS;
  46D:1:SMALL LETTER IOTIFIED BIG YUS;46E:1:CAPITAL LETTER KSI;46F:1:SMALL LETTER KSI;
  470:1:CAPITAL LETTER PSI;471:1:SMALL LETTER PSI;472:1:CAPITAL LETTER FITA;
  473:1:SMALL LETTER FITA;474:1:CAPITAL LETTER IZHITSA;475:1:SMALL LETTER IZHITSA;
  476:1:CAPITAL LETTER IZHITSA WITH DOUBLE GRAVE ACCENT;
  477:1:SMALL LETTER IZHITSA WITH DOUBLE GRAVE ACCENT;478:1:CAPITAL LETTER UK;
  479:1:SMALL LETTER UK;47A:1:CAPITAL LETTER ROUND OMEGA;47B:1:SMALL LETTER ROUND OMEGA;
  47C:1:CAPITAL LETTER OMEGA WITH TITLO;47D:1:SMALL LETTER OMEGA WITH TITLO;
  47E:1:CAPITAL LETTER OT;47F:1:SMALL LETTER OT;480:1:CAPITAL LETTER KOPPA;
  481:1:SMALL LETTER KOPPA;482:1:THOUSANDS SIGN;483:0:COMBINING CYRILLIC TITLO;
  484:2:PALATALIZATION;485:2:DASIA PNEUMATA;486:2:PSILI PNEUMATA;487:2:POKRYTIE;
  488:2:HUNDRED THOUSANDS SIGN;489:2:MILLIONS SIGN;
  48A:0:CYRILLIC CAPITAL LETTER SHORT I WITH TAIL;48B:1:SMALL LETTER SHORT I WITH TAIL;
  48C:1:CAPITAL LETTER SEMISOFT SIGN;48D:1:SMALL LETTER SEMISOFT SIGN;
  48E:1:CAPITAL LETTER ER WITH TICK;48F:1:SMALL LETTER ER WITH TICK;
  490:1:CAPITAL LETTER GHE WITH UPTURN;491:1:SMALL LETTER GHE WITH UPTURN;
  492:1:CAPITAL LETTER GHE WITH STROKE;493:1:SMALL LETTER GHE WITH STROKE;
  494:1:CAPITAL LETTER GHE WITH MIDDLE HOOK;495:1:SMALL LETTER GHE WITH MIDDLE HOOK;
  496:1:CAPITAL LETTER ZHE WITH DESCENDER;497:1:SMALL LETTER ZHE WITH DESCENDER;
  498:1:CAPITAL LETTER ZE WITH DESCENDER;499:1:SMALL LETTER ZE WITH DESCENDER;
  49A:1:CAPITAL LETTER KA WITH DESCENDER;49B:1:SMALL LETTER KA WITH DESCENDER;
  49C:1:CAPITAL LETTER KA WITH VERTICAL STROKE;49D:1:SMALL LETTER KA WITH VERTICAL STROKE;
  49E:1:CAPITAL LETTER KA WITH STROKE;49F:1:SMALL LETTER KA WITH STROKE;
  4A0:1:CAPITAL LETTER BASHKIR KA;4A1:1:SMALL LETTER BASHKIR KA;
  4A2:1:CAPITAL LETTER EN WITH DESCENDER;4A3:1:SMALL LETTER EN WITH DESCENDER;
  4A4:1:CAPITAL LIGATURE EN GHE;4A5:1:SMALL LIGATURE EN GHE;
  4A6:1:CAPITAL LETTER PE WITH MIDDLE HOOK;4A7:1:SMALL LETTER PE WITH MIDDLE HOOK;
  4A8:1:CAPITAL LETTER ABKHASIAN HA;4A9:1:SMALL LETTER ABKHASIAN HA;
  4AA:1:CAPITAL LETTER ES WITH DESCENDER;4AB:1:SMALL LETTER ES WITH DESCENDER;
  4AC:1:CAPITAL LETTER TE WITH DESCENDER;4AD:1:SMALL LETTER TE WITH DESCENDER;
  4AE:1:CAPITAL LETTER STRAIGHT U;4AF:1:SMALL LETTER STRAIGHT U;
  4B0:1:CAPITAL LETTER STRAIGHT U WITH STROKE;4B1:1:SMALL LETTER STRAIGHT U WITH STROKE;
  4B2:1:CAPITAL LETTER HA WITH DESCENDER;4B3:1:SMALL LETTER HA WITH DESCENDER;
  4B4:1:CAPITAL LIGATURE TE TSE;4B5:1:SMALL LIGATURE TE TSE;
  4B6:1:CAPITAL LETTER CHE WITH DESCENDER;4B7:1:SMALL LETTER CHE WITH DESCENDER;
  4B8:1:CAPITAL LETTER CHE WITH VERTICAL STROKE;4B9:1:SMALL LETTER CHE WITH VERTICAL STROKE;
  4BA:1:CAPITAL LETTER SHHA;4BB:1:SMALL LETTER SHHA;4BC:1:CAPITAL LETTER ABKHASIAN CHE;
  4BD:1:SMALL LETTER ABKHASIAN CHE;4BE:1:CAPITAL LETTER ABKHASIAN CHE WITH DESCENDER;
  4BF:1:SMALL LETTER ABKHASIAN CHE WITH DESCENDER;4C0:1:LETTER PALOCHKA;
  4C1:1:CAPITAL LETTER ZHE WITH BREVE;4C2:1:SMALL LETTER ZHE WITH BREVE;
  4C3:1:CAPITAL LETTER KA WITH HOOK;4C4:1:SMALL LETTER KA WITH HOOK;
  4C5:1:CAPITAL LETTER EL WITH TAIL;4C6:1:SMALL LETTER EL WITH TAIL;
  4C7:1:CAPITAL LETTER EN WITH HOOK;4C8:1:SMALL LETTER EN WITH HOOK;
  4C9:1:CAPITAL LETTER EN WITH TAIL;4CA:1:SMALL LETTER EN WITH TAIL;
  4CB:1:CAPITAL LETTER KHAKASSIAN CHE;4CC:1:SMALL LETTER KHAKASSIAN CHE;
  4CD:1:CAPITAL LETTER EM WITH TAIL;4CE:1:SMALL LETTER EM WITH TAIL;4CF:3:PALOCHKA;
  4D0:1:CAPITAL LETTER A WITH BREVE;4D1:1:SMALL LETTER A WITH BREVE;
  4D2:1:CAPITAL LETTER A WITH DIAERESIS;4D3:1:SMALL LETTER A WITH DIAERESIS;
  4D4:1:CAPITAL LIGATURE A IE;4D5:1:SMALL LIGATURE A IE;4D6:1:CAPITAL LETTER IE WITH BREVE;
  4D7:1:SMALL LETTER IE WITH BREVE;4D8:1:CAPITAL LETTER SCHWA;4D9:1:SMALL LETTER SCHWA;
  4DA:1:CAPITAL LETTER SCHWA WITH DIAERESIS;4DB:1:SMALL LETTER SCHWA WITH DIAERESIS;
  4DC:1:CAPITAL LETTER ZHE WITH DIAERESIS;4DD:1:SMALL LETTER ZHE WITH DIAERESIS;
  4DE:1:CAPITAL LETTER ZE WITH DIAERESIS;4DF:1:SMALL LETTER ZE WITH DIAERESIS;
  4E0:1:CAPITAL LETTER ABKHASIAN DZE;4E1:1:SMALL LETTER ABKHASIAN DZE;
  4E2:1:CAPITAL LETTER I WITH MACRON;4E3:1:SMALL LETTER I WITH MACRON;
  4E4:1:CAPITAL LETTER I WITH DIAERESIS;4E5:1:SMALL LETTER I WITH DIAERESIS;
  4E6:1:CAPITAL LETTER O WITH DIAERESIS;4E7:1:SMALL LETTER O WITH DIAERESIS;
  4E8:1:CAPITAL LETTER BARRED O;4E9:1:SMALL LETTER BARRED O;
  4EA:1:CAPITAL LETTER BARRED O WITH DIAERESIS;4EB:1:SMALL LETTER BARRED O WITH DIAERESIS;
  4EC:1:CAPITAL LETTER E WITH DIAERESIS;4ED:1:SMALL LETTER E WITH DIAERESIS;
  4EE:1:CAPITAL LETTER U WITH MACRON;4EF:1:SMALL LETTER U WITH MACRON;
  4F0:1:CAPITAL LETTER U WITH DIAERESIS;4F1:1:SMALL LETTER U WITH DIAERESIS;
  4F2:1:CAPITAL LETTER U WITH DOUBLE ACUTE;4F3:1:SMALL LETTER U WITH DOUBLE ACUTE;
  4F4:1:CAPITAL LETTER CHE WITH DIAERESIS;4F5:1:SMALL LETTER CHE WITH DIAERESIS;
  4F6:1:CAPITAL LETTER GHE WITH DESCENDER;4F7:1:SMALL LETTER GHE WITH DESCENDER;
  4F8:1:CAPITAL LETTER YERU WITH DIAERESIS;4F9:1:SMALL LETTER YERU WITH DIAERESIS;
  4FA:1:CAPITAL LETTER GHE WITH STROKE AND HOOK;4FB:1:SMALL LETTER GHE WITH STROKE AND HOOK;
  4FC:1:CAPITAL LETTER HA WITH HOOK;4FD:1:SMALL LETTER HA WITH HOOK;
  4FE:1:CAPITAL LETTER HA WITH STROKE;4FF:1:SMALL LETTER HA WITH STROKE;
  500:1:CAPITAL LETTER KOMI DE;501:1:SMALL LETTER KOMI DE;502:1:CAPITAL LETTER KOMI DJE;
  503:1:SMALL LETTER KOMI DJE;504:1:CAPITAL LETTER KOMI ZJE;505:1:SMALL LETTER KOMI ZJE;
  506:1:CAPITAL LETTER KOMI DZJE;507:1:SMALL LETTER KOMI DZJE;508:1:CAPITAL LETTER KOMI LJE;
  509:1:SMALL LETTER KOMI LJE;50A:1:CAPITAL LETTER KOMI NJE;50B:1:SMALL LETTER KOMI NJE;
  50C:1:CAPITAL LETTER KOMI SJE;50D:1:SMALL LETTER KOMI SJE;50E:1:CAPITAL LETTER KOMI TJE;
  50F:1:SMALL LETTER KOMI TJE;510:1:CAPITAL LETTER REVERSED ZE;511:1:SMALL LETTER REVERSED ZE;
  512:1:CAPITAL LETTER EL WITH HOOK;513:1:SMALL LETTER EL WITH HOOK;514:1:CAPITAL LETTER LHA;
  515:1:SMALL LETTER LHA;516:1:CAPITAL LETTER RHA;517:1:SMALL LETTER RHA;
  518:1:CAPITAL LETTER YAE;519:1:SMALL LETTER YAE;51A:1:CAPITAL LETTER QA;51B:1:SMALL LETTER QA;
  51C:1:CAPITAL LETTER WE;51D:1:SMALL LETTER WE;51E:1:CAPITAL LETTER ALEUT KA;
  51F:1:SMALL LETTER ALEUT KA;520:1:CAPITAL LETTER EL WITH MIDDLE HOOK;
  521:1:SMALL LETTER EL WITH MIDDLE HOOK;522:1:CAPITAL LETTER EN WITH MIDDLE HOOK;
  523:1:SMALL LETTER EN WITH MIDDLE HOOK;524:1:CAPITAL LETTER PE WITH DESCENDER;
  525:1:SMALL LETTER PE WITH DESCENDER;526:1:CAPITAL LETTER SHHA WITH DESCENDER;
  527:1:SMALL LETTER SHHA WITH DESCENDER;528:1:CAPITAL LETTER EN WITH LEFT HOOK;
  529:1:SMALL LETTER EN WITH LEFT HOOK;52A:1:CAPITAL LETTER DZZHE;52B:1:SMALL LETTER DZZHE;
  52C:1:CAPITAL LETTER DCHE;52D:1:SMALL LETTER DCHE;52E:1:CAPITAL LETTER EL WITH DESCENDER;
  52F:1:SMALL LETTER EL WITH DESCENDER;1D00:0:LATIN LETTER SMALL CAPITAL A;1D01:4:AE;
  1D02:1:SMALL LETTER TURNED AE;1D03:1:LETTER SMALL CAPITAL BARRED B;1D04:4:C;1D05:4:D;
  1D06:4:ETH;1D07:4:E;1D08:1:SMALL LETTER TURNED OPEN E;1D09:4:I;1D0A:1:LETTER SMALL CAPITAL J;
  1D0B:4:K;1D0C:4:L WITH STROKE;1D0D:4:M;1D0E:4:REVERSED N;1D0F:4:O;1D10:4:OPEN O;
  1D11:1:SMALL LETTER SIDEWAYS O;1D12:4:OPEN O;1D13:4:O WITH STROKE;1D14:3:TURNED OE;
  1D15:1:LETTER SMALL CAPITAL OU;1D16:1:SMALL LETTER TOP HALF O;1D17:3:BOTTOM HALF O;
  1D18:1:LETTER SMALL CAPITAL P;1D19:4:REVERSED R;1D1A:4:TURNED R;1D1B:4:T;1D1C:4:U;
  1D1D:1:SMALL LETTER SIDEWAYS U;1D1E:4:DIAERESIZED U;1D1F:4:TURNED M;
  1D20:1:LETTER SMALL CAPITAL V;1D21:4:W;1D22:4:Z;1D23:4:EZH;1D24:2:VOICED LARYNGEAL SPIRANT;
  1D25:2:AIN;1D26:0:GREEK LETTER SMALL CAPITAL GAMMA;1D27:4:LAMDA;1D28:4:PI;1D29:4:RHO;
  1D2A:4:PSI;1D2B:0:CYRILLIC LETTER SMALL CAPITAL EL;1D2C:0:MODIFIER LETTER CAPITAL A;1D2D:3:AE;
  1D2E:3:B;1D2F:3:BARRED B;1D30:3:D;1D31:3:E;1D32:3:REVERSED E;1D33:3:G;1D34:3:H;1D35:3:I;
  1D36:3:J;1D37:3:K;1D38:3:L;1D39:3:M;1D3A:3:N;1D3B:3:REVERSED N;1D3C:3:O;1D3D:3:OU;1D3E:3:P;
  1D3F:3:R;1D40:3:T;1D41:3:U;1D42:3:W;1D43:2:SMALL A;1D44:3:TURNED A;1D45:3:ALPHA;
  1D46:3:TURNED AE;1D47:3:B;1D48:3:D;1D49:3:E;1D4A:3:SCHWA;1D4B:3:OPEN E;1D4C:3:TURNED OPEN E;
  1D4D:3:G;1D4E:3:TURNED I;1D4F:3:K;1D50:3:M;1D51:3:ENG;1D52:3:O;1D53:3:OPEN O;
  1D54:3:TOP HALF O;1D55:3:BOTTOM HALF O;1D56:3:P;1D57:3:T;1D58:3:U;1D59:3:SIDEWAYS U;
  1D5A:3:TURNED M;1D5B:3:V;1D5C:3:AIN;1D5D:3:BETA;1D5E:3:GREEK GAMMA;1D5F:3:DELTA;
  1D60:3:GREEK PHI;1D61:3:CHI;1D62:0:LATIN SUBSCRIPT SMALL LETTER I;1D63:4:R;1D64:4:U;1D65:4:V;
  1D66:0:GREEK SUBSCRIPT SMALL LETTER BETA;1D67:4:GAMMA;1D68:4:RHO;1D69:4:PHI;1D6A:4:CHI;
  1D6B:0:LATIN SMALL LETTER UE;1D6C:3:B WITH MIDDLE TILDE;1D6D:3:D WITH MIDDLE TILDE;
  1D6E:3:F WITH MIDDLE TILDE;1D6F:3:M WITH MIDDLE TILDE;1D70:3:N WITH MIDDLE TILDE;
  1D71:3:P WITH MIDDLE TILDE;1D72:3:R WITH MIDDLE TILDE;1D73:5:FISHHOOK AND MIDDLE TILDE;
  1D74:3:S WITH MIDDLE TILDE;1D75:3:T WITH MIDDLE TILDE;1D76:3:Z WITH MIDDLE TILDE;
  1D77:3:TURNED G;1D78:0:MODIFIER LETTER CYRILLIC EN;1D79:0:LATIN SMALL LETTER INSULAR G;
  1D7A:3:TH WITH STRIKETHROUGH;1D7B:2:CAPITAL LETTER I WITH STROKE;
  1D7C:2:LETTER IOTA WITH STROKE;1D7D:3:P WITH STROKE;1D7E:2:CAPITAL LETTER U WITH STROKE;
  1D7F:2:LETTER UPSILON WITH STROKE;1D80:3:B WITH PALATAL HOOK;1D81:3:D WITH PALATAL HOOK;
  1D82:3:F WITH PALATAL HOOK;1D83:3:G WITH PALATAL HOOK;1D84:3:K WITH PALATAL HOOK;
  1D85:3:L WITH PALATAL HOOK;1D86:3:M WITH PALATAL HOOK;1D87:3:N WITH PALATAL HOOK;
  1D88:3:P WITH PALATAL HOOK;1D89:3:R WITH PALATAL HOOK;1D8A:3:S WITH PALATAL HOOK;
  1D8B:3:ESH WITH PALATAL HOOK;1D8C:3:V WITH PALATAL HOOK;1D8D:3:X WITH PALATAL HOOK;
  1D8E:3:Z WITH PALATAL HOOK;1D8F:3:A WITH RETROFLEX HOOK;1D90:3:ALPHA WITH RETROFLEX HOOK;
  1D91:3:D WITH HOOK AND TAIL;1D92:3:E WITH RETROFLEX HOOK;1D93:3:OPEN E WITH RETROFLEX HOOK;
  1D94:3:REVERSED OPEN E WITH RETROFLEX HOOK;1D95:3:SCHWA WITH RETROFLEX HOOK;
  1D96:3:I WITH RETROFLEX HOOK;1D97:3:OPEN O WITH RETROFLEX HOOK;1D98:3:ESH WITH RETROFLEX HOOK;
  1D99:3:U WITH RETROFLEX HOOK;1D9A:3:EZH WITH RETROFLEX HOOK;
  1D9B:0:MODIFIER LETTER SMALL TURNED ALPHA;1D9C:3:C;1D9D:4:WITH CURL;1D9E:3:ETH;
  1D9F:3:REVERSED OPEN E;1DA0:3:F;1DA1:3:DOTLESS J WITH STROKE;1DA2:3:SCRIPT G;1DA3:3:TURNED H;
  1DA4:3:I WITH STROKE;1DA5:3:IOTA;1DA6:3:CAPITAL I;1DA7:5:WITH STROKE;
  1DA8:3:J WITH CROSSED-TAIL;1DA9:3:L WITH RETROFLEX HOOK;1DAA:5:PALATAL HOOK;1DAB:3:CAPITAL L;
  1DAC:3:M WITH HOOK;1DAD:3:TURNED M WITH LONG LEG;1DAE:3:N WITH LEFT HOOK;
  1DAF:5:RETROFLEX HOOK;1DB0:3:CAPITAL N;1DB1:3:BARRED O;1DB2:3:PHI;1DB3:3:S WITH HOOK;
  1DB4:3:ESH;1DB5:3:T WITH PALATAL HOOK;1DB6:3:U BAR;1DB7:3:UPSILON;1DB8:3:CAPITAL U;
  1DB9:3:V WITH HOOK;1DBA:3:TURNED V;1DBB:3:Z;1DBC:4:WITH RETROFLEX HOOK;1DBD:5:CURL;1DBE:3:EZH;
  1DBF:3:THETA;1DC0:0:COMBINING DOTTED GRAVE ACCENT;1DC1:2:ACUTE ACCENT;1DC2:1:SNAKE BELOW;
  1DC3:1:SUSPENSION MARK;1DC4:1:MACRON-ACUTE;1DC5:1:GRAVE-MACRON;1DC6:1:MACRON-GRAVE;
  1DC7:1:ACUTE-MACRON;1DC8:1:GRAVE-ACUTE-GRAVE;1DC9:1:ACUTE-GRAVE-ACUTE;
  1DCA:1:LATIN SMALL LETTER R BELOW;1DCB:1:BREVE-MACRON;1DCC:1:MACRON-BREVE;
  1DCD:1:DOUBLE CIRCUMFLEX ABOVE;1DCE:1:OGONEK ABOVE;1DCF:1:ZIGZAG BELOW;1DD0:1:IS BELOW;
  1DD1:1:UR ABOVE;1DD2:1:US ABOVE;1DD3:1:LATIN SMALL LETTER FLATTENED OPEN A ABOVE;1DD4:4:AE;
  1DD5:4:AO;1DD6:4:AV;1DD7:4:C CEDILLA;1DD8:4:INSULAR D;1DD9:4:ETH;1DDA:4:G;
  1DDB:2:LETTER SMALL CAPITAL G;1DDC:2:SMALL LETTER K;1DDD:4:L;1DDE:2:LETTER SMALL CAPITAL L;
  1DDF:5:M;1DE0:2:SMALL LETTER N;1DE1:2:LETTER SMALL CAPITAL N;1DE2:5:R;
  1DE3:2:SMALL LETTER R ROTUNDA;1DE4:4:S;1DE5:4:LONG S;1DE6:4:Z;1DE7:4:ALPHA;1DE8:4:B;
  1DE9:4:BETA;1DEA:4:SCHWA;1DEB:4:F;1DEC:4:L WITH DOUBLE MIDDLE TILDE;
  1DED:4:O WITH LIGHT CENTRALIZATION STROKE;1DEE:4:P;1DEF:4:ESH;
  1DF0:4:U WITH LIGHT CENTRALIZATION STROKE;1DF1:4:W;1DF2:4:A WITH DIAERESIS;
  1DF3:4:O WITH DIAERESIS;1DF4:4:U WITH DIAERESIS;1DF5:1:UP TACK ABOVE;
  1DF6:1:KAVYKA ABOVE RIGHT;1DF7:3:LEFT;1DF8:1:DOT ABOVE LEFT;1DF9:1:WIDE INVERTED BRIDGE BELOW;
  1DFA:1:DOT BELOW LEFT;1DFB:1:DELETION MARK;1DFC:1:DOUBLE INVERTED BREVE BELOW;
  1DFD:1:ALMOST EQUAL TO BELOW;1DFE:1:LEFT ARROWHEAD ABOVE;
  1DFF:1:RIGHT ARROWHEAD AND DOWN ARROWHEAD BELOW;1E00:0:LATIN CAPITAL LETTER A WITH RING BELOW;
  1E01:1:SMALL LETTER A WITH RING BELOW;1E02:1:CAPITAL LETTER B WITH DOT ABOVE;
  1E03:1:SMALL LETTER B WITH DOT ABOVE;1E04:1:CAPITAL LETTER B WITH DOT BELOW;
  1E05:1:SMALL LETTER B WITH DOT BELOW;1E06:1:CAPITAL LETTER B WITH LINE BELOW;
  1E07:1:SMALL LETTER B WITH LINE BELOW;1E08:1:CAPITAL LETTER C WITH CEDILLA AND ACUTE;
  1E09:1:SMALL LETTER C WITH CEDILLA AND ACUTE;1E0A:1:CAPITAL LETTER D WITH DOT ABOVE;
  1E0B:1:SMALL LETTER D WITH DOT ABOVE;1E0C:1:CAPITAL LETTER D WITH DOT BELOW;
  1E0D:1:SMALL LETTER D WITH DOT BELOW;1E0E:1:CAPITAL LETTER D WITH LINE BELOW;
  1E0F:1:SMALL LETTER D WITH LINE BELOW;1E10:1:CAPITAL LETTER D WITH CEDILLA;
  1E11:1:SMALL LETTER D WITH CEDILLA;1E12:1:CAPITAL LETTER D WITH CIRCUMFLEX BELOW;
  1E13:1:SMALL LETTER D WITH CIRCUMFLEX BELOW;1E14:1:CAPITAL LETTER E WITH MACRON AND GRAVE;
  1E15:1:SMALL LETTER E WITH MACRON AND GRAVE;1E16:1:CAPITAL LETTER E WITH MACRON AND ACUTE;
  1E17:1:SMALL LETTER E WITH MACRON AND ACUTE;1E18:1:CAPITAL LETTER E WITH CIRCUMFLEX BELOW;
  1E19:1:SMALL LETTER E WITH CIRCUMFLEX BELOW;1E1A:1:CAPITAL LETTER E WITH TILDE BELOW;
  1E1B:1:SMALL LETTER E WITH TILDE BELOW;1E1C:1:CAPITAL LETTER E WITH CEDILLA AND BREVE;
  1E1D:1:SMALL LETTER E WITH CEDILLA AND BREVE;1E1E:1:CAPITAL LETTER F WITH DOT ABOVE;
  1E1F:1:SMALL LETTER F WITH DOT ABOVE;1E20:1:CAPITAL LETTER G WITH MACRON;
  1E21:1:SMALL LETTER G WITH MACRON;1E22:1:CAPITAL LETTER H WITH DOT ABOVE;
  1E23:1:SMALL LETTER H WITH DOT ABOVE;1E24:1:CAPITAL LETTER H WITH DOT BELOW;
  1E25:1:SMALL LETTER H WITH DOT BELOW;1E26:1:CAPITAL LETTER H WITH DIAERESIS;
  1E27:1:SMALL LETTER H WITH DIAERESIS;1E28:1:CAPITAL LETTER H WITH CEDILLA;
  1E29:1:SMALL LETTER H WITH CEDILLA;1E2A:1:CAPITAL LETTER H WITH BREVE BELOW;
  1E2B:1:SMALL LETTER H WITH BREVE BELOW;1E2C:1:CAPITAL LETTER I WITH TILDE BELOW;
  1E2D:1:SMALL LETTER I WITH TILDE BELOW;1E2E:1:CAPITAL LETTER I WITH DIAERESIS AND ACUTE;
  1E2F:1:SMALL LETTER I WITH DIAERESIS AND ACUTE;1E30:1:CAPITAL LETTER K WITH ACUTE;
  1E31:1:SMALL LETTER K WITH ACUTE;1E32:1:CAPITAL LETTER K WITH DOT BELOW;
  1E33:1:SMALL LETTER K WITH DOT BELOW;1E34:1:CAPITAL LETTER K WITH LINE BELOW;
  1E35:1:SMALL LETTER K WITH LINE BELOW;1E36:1:CAPITAL LETTER L WITH DOT BELOW;
  1E37:1:SMALL LETTER L WITH DOT BELOW;1E38:1:CAPITAL LETTER L WITH DOT BELOW AND MACRON;
  1E39:1:SMALL LETTER L WITH DOT BELOW AND MACRON;1E3A:1:CAPITAL LETTER L WITH LINE BELOW;
  1E3B:1:SMALL LETTER L WITH LINE BELOW;1E3C:1:CAPITAL LETTER L WITH CIRCUMFLEX BELOW;
  1E3D:1:SMALL LETTER L WITH CIRCUMFLEX BELOW;1E3E:1:CAPITAL LETTER M WITH ACUTE;
  1E3F:1:SMALL LETTER M WITH ACUTE;1E40:1:CAPITAL LETTER M WITH DOT ABOVE;
  1E41:1:SMALL LETTER M WITH DOT ABOVE;1E42:1:CAPITAL LETTER M WITH DOT BELOW;
  1E43:1:SMALL LETTER M WITH DOT BELOW;1E44:1:CAPITAL LETTER N WITH DOT ABOVE;
  1E45:1:SMALL LETTER N WITH DOT ABOVE;1E46:1:CAPITAL LETTER N WITH DOT BELOW;
  1E47:1:SMALL LETTER N WITH DOT BELOW;1E48:1:CAPITAL LETTER N WITH LINE BELOW;
  1E49:1:SMALL LETTER N WITH LINE BELOW;1E4A:1:CAPITAL LETTER N WITH CIRCUMFLEX BELOW;
  1E4B:1:SMALL LETTER N WITH CIRCUMFLEX BELOW;1E4C:1:CAPITAL LETTER O WITH TILDE AND ACUTE;
  1E4D:1:SMALL LETTER O WITH TILDE AND ACUTE;1E4E:1:CAPITAL LETTER O WITH TILDE AND DIAERESIS;
  1E4F:1:SMALL LETTER O WITH TILDE AND DIAERESIS;1E50:1:CAPITAL LETTER O WITH MACRON AND GRAVE;
  1E51:1:SMALL LETTER O WITH MACRON AND GRAVE;1E52:1:CAPITAL LETTER O WITH MACRON AND ACUTE;
  1E53:1:SMALL LETTER O WITH MACRON AND ACUTE;1E54:1:CAPITAL LETTER P WITH ACUTE;
  1E55:1:SMALL LETTER P WITH ACUTE;1E56:1:CAPITAL LETTER P WITH DOT ABOVE;
  1E57:1:SMALL LETTER P WITH DOT ABOVE;1E58:1:CAPITAL LETTER R WITH DOT ABOVE;
  1E59:1:SMALL LETTER R WITH DOT ABOVE;1E5A:1:CAPITAL LETTER R WITH DOT BELOW;
  1E5B:1:SMALL LETTER R WITH DOT BELOW;1E5C:1:CAPITAL LETTER R WITH DOT BELOW AND MACRON;
  1E5D:1:SMALL LETTER R WITH DOT BELOW AND MACRON;1E5E:1:CAPITAL LETTER R WITH LINE BELOW;
  1E5F:1:SMALL LETTER R WITH LINE BELOW;1E60:1:CAPITAL LETTER S WITH DOT ABOVE;
  1E61:1:SMALL LETTER S WITH DOT ABOVE;1E62:1:CAPITAL LETTER S WITH DOT BELOW;
  1E63:1:SMALL LETTER S WITH DOT BELOW;1E64:1:CAPITAL LETTER S WITH ACUTE AND DOT ABOVE;
  1E65:1:SMALL LETTER S WITH ACUTE AND DOT ABOVE;
  1E66:1:CAPITAL LETTER S WITH CARON AND DOT ABOVE;
  1E67:1:SMALL LETTER S WITH CARON AND DOT ABOVE;
  1E68:1:CAPITAL LETTER S WITH DOT BELOW AND DOT ABOVE;
  1E69:1:SMALL LETTER S WITH DOT BELOW AND DOT ABOVE;1E6A:1:CAPITAL LETTER T WITH DOT ABOVE;
  1E6B:1:SMALL LETTER T WITH DOT ABOVE;1E6C:1:CAPITAL LETTER T WITH DOT BELOW;
  1E6D:1:SMALL LETTER T WITH DOT BELOW;1E6E:1:CAPITAL LETTER T WITH LINE BELOW;
  1E6F:1:SMALL LETTER T WITH LINE BELOW;1E70:1:CAPITAL LETTER T WITH CIRCUMFLEX BELOW;
  1E71:1:SMALL LETTER T WITH CIRCUMFLEX BELOW;1E72:1:CAPITAL LETTER U WITH DIAERESIS BELOW;
  1E73:1:SMALL LETTER U WITH DIAERESIS BELOW;1E74:1:CAPITAL LETTER U WITH TILDE BELOW;
  1E75:1:SMALL LETTER U WITH TILDE BELOW;1E76:1:CAPITAL LETTER U WITH CIRCUMFLEX BELOW;
  1E77:1:SMALL LETTER U WITH CIRCUMFLEX BELOW;1E78:1:CAPITAL LETTER U WITH TILDE AND ACUTE;
  1E79:1:SMALL LETTER U WITH TILDE AND ACUTE;1E7A:1:CAPITAL LETTER U WITH MACRON AND DIAERESIS;
  1E7B:1:SMALL LETTER U WITH MACRON AND DIAERESIS;1E7C:1:CAPITAL LETTER V WITH TILDE;
  1E7D:1:SMALL LETTER V WITH TILDE;1E7E:1:CAPITAL LETTER V WITH DOT BELOW;
  1E7F:1:SMALL LETTER V WITH DOT BELOW;1E80:1:CAPITAL LETTER W WITH GRAVE;
  1E81:1:SMALL LETTER W WITH GRAVE;1E82:1:CAPITAL LETTER W WITH ACUTE;
  1E83:1:SMALL LETTER W WITH ACUTE;1E84:1:CAPITAL LETTER W WITH DIAERESIS;
  1E85:1:SMALL LETTER W WITH DIAERESIS;1E86:1:CAPITAL LETTER W WITH DOT ABOVE;
  1E87:1:SMALL LETTER W WITH DOT ABOVE;1E88:1:CAPITAL LETTER W WITH DOT BELOW;
  1E89:1:SMALL LETTER W WITH DOT BELOW;1E8A:1:CAPITAL LETTER X WITH DOT ABOVE;
  1E8B:1:SMALL LETTER X WITH DOT ABOVE;1E8C:1:CAPITAL LETTER X WITH DIAERESIS;
  1E8D:1:SMALL LETTER X WITH DIAERESIS;1E8E:1:CAPITAL LETTER Y WITH DOT ABOVE;
  1E8F:1:SMALL LETTER Y WITH DOT ABOVE;1E90:1:CAPITAL LETTER Z WITH CIRCUMFLEX;
  1E91:1:SMALL LETTER Z WITH CIRCUMFLEX;1E92:1:CAPITAL LETTER Z WITH DOT BELOW;
  1E93:1:SMALL LETTER Z WITH DOT BELOW;1E94:1:CAPITAL LETTER Z WITH LINE BELOW;
  1E95:1:SMALL LETTER Z WITH LINE BELOW;1E96:3:H WITH LINE BELOW;1E97:3:T WITH DIAERESIS;
  1E98:3:W WITH RING ABOVE;1E99:3:Y WITH RING ABOVE;1E9A:3:A WITH RIGHT HALF RING;
  1E9B:3:LONG S WITH DOT ABOVE;1E9C:6:DIAGONAL STROKE;1E9D:6:HIGH STROKE;
  1E9E:1:CAPITAL LETTER SHARP S;1E9F:1:SMALL LETTER DELTA;
  1EA0:1:CAPITAL LETTER A WITH DOT BELOW;1EA1:1:SMALL LETTER A WITH DOT BELOW;
  1EA2:1:CAPITAL LETTER A WITH HOOK ABOVE;1EA3:1:SMALL LETTER A WITH HOOK ABOVE;
  1EA4:1:CAPITAL LETTER A WITH CIRCUMFLEX AND ACUTE;
  1EA5:1:SMALL LETTER A WITH CIRCUMFLEX AND ACUTE;
  1EA6:1:CAPITAL LETTER A WITH CIRCUMFLEX AND GRAVE;
  1EA7:1:SMALL LETTER A WITH CIRCUMFLEX AND GRAVE;
  1EA8:1:CAPITAL LETTER A WITH CIRCUMFLEX AND HOOK ABOVE;
  1EA9:1:SMALL LETTER A WITH CIRCUMFLEX AND HOOK ABOVE;
  1EAA:1:CAPITAL LETTER A WITH CIRCUMFLEX AND TILDE;
  1EAB:1:SMALL LETTER A WITH CIRCUMFLEX AND TILDE;
  1EAC:1:CAPITAL LETTER A WITH CIRCUMFLEX AND DOT BELOW;
  1EAD:1:SMALL LETTER A WITH CIRCUMFLEX AND DOT BELOW;
  1EAE:1:CAPITAL LETTER A WITH BREVE AND ACUTE;1EAF:1:SMALL LETTER A WITH BREVE AND ACUTE;
  1EB0:1:CAPITAL LETTER A WITH BREVE AND GRAVE;1EB1:1:SMALL LETTER A WITH BREVE AND GRAVE;
  1EB2:1:CAPITAL LETTER A WITH BREVE AND HOOK ABOVE;
  1EB3:1:SMALL LETTER A WITH BREVE AND HOOK ABOVE;1EB4:1:CAPITAL LETTER A WITH BREVE AND TILDE;
  1EB5:1:SMALL LETTER A WITH BREVE AND TILDE;1EB6:1:CAPITAL LETTER A WITH BREVE AND DOT BELOW;
  1EB7:1:SMALL LETTER A WITH BREVE AND DOT BELOW;1EB8:1:CAPITAL LETTER E WITH DOT BELOW;
  1EB9:1:SMALL LETTER E WITH DOT BELOW;1EBA:1:CAPITAL LETTER E WITH HOOK ABOVE;
  1EBB:1:SMALL LETTER E WITH HOOK ABOVE;1EBC:1:CAPITAL LETTER E WITH TILDE;
  1EBD:1:SMALL LETTER E WITH TILDE;1EBE:1:CAPITAL LETTER E WITH CIRCUMFLEX AND ACUTE;
  1EBF:1:SMALL LETTER E WITH CIRCUMFLEX AND ACUTE;
  1EC0:1:CAPITAL LETTER E WITH CIRCUMFLEX AND GRAVE;
  1EC1:1:SMALL LETTER E WITH CIRCUMFLEX AND GRAVE;
  1EC2:1:CAPITAL LETTER E WITH CIRCUMFLEX AND HOOK ABOVE;
  1EC3:1:SMALL LETTER E WITH CIRCUMFLEX AND HOOK ABOVE;
  1EC4:1:CAPITAL LETTER E WITH CIRCUMFLEX AND TILDE;
  1EC5:1:SMALL LETTER E WITH CIRCUMFLEX AND TILDE;
  1EC6:1:CAPITAL LETTER E WITH CIRCUMFLEX AND DOT BELOW;
  1EC7:1:SMALL LETTER E WITH CIRCUMFLEX AND DOT BELOW;1EC8:1:CAPITAL LETTER I WITH HOOK ABOVE;
  1EC9:1:SMALL LETTER I WITH HOOK ABOVE;1ECA:1:CAPITAL LETTER I WITH DOT BELOW;
  1ECB:1:SMALL LETTER I WITH DOT BELOW;1ECC:1:CAPITAL LETTER O WITH DOT BELOW;
  1ECD:1:SMALL LETTER O WITH DOT BELOW;1ECE:1:CAPITAL LETTER O WITH HOOK ABOVE;
  1ECF:1:SMALL LETTER O WITH HOOK ABOVE;1ED0:1:CAPITAL LETTER O WITH CIRCUMFLEX AND ACUTE;
  1ED1:1:SMALL LETTER O WITH CIRCUMFLEX AND ACUTE;
  1ED2:1:CAPITAL LETTER O WITH CIRCUMFLEX AND GRAVE;
  1ED3:1:SMALL LETTER O WITH CIRCUMFLEX AND GRAVE;
  1ED4:1:CAPITAL LETTER O WITH CIRCUMFLEX AND HOOK ABOVE;
  1ED5:1:SMALL LETTER O WITH CIRCUMFLEX AND HOOK ABOVE;
  1ED6:1:CAPITAL LETTER O WITH CIRCUMFLEX AND TILDE;
  1ED7:1:SMALL LETTER O WITH CIRCUMFLEX AND TILDE;
  1ED8:1:CAPITAL LETTER O WITH CIRCUMFLEX AND DOT BELOW;
  1ED9:1:SMALL LETTER O WITH CIRCUMFLEX AND DOT BELOW;
  1EDA:1:CAPITAL LETTER O WITH HORN AND ACUTE;1EDB:1:SMALL LETTER O WITH HORN AND ACUTE;
  1EDC:1:CAPITAL LETTER O WITH HORN AND GRAVE;1EDD:1:SMALL LETTER O WITH HORN AND GRAVE;
  1EDE:1:CAPITAL LETTER O WITH HORN AND HOOK ABOVE;
  1EDF:1:SMALL LETTER O WITH HORN AND HOOK ABOVE;1EE0:1:CAPITAL LETTER O WITH HORN AND TILDE;
  1EE1:1:SMALL LETTER O WITH HORN AND TILDE;1EE2:1:CAPITAL LETTER O WITH HORN AND DOT BELOW;
  1EE3:1:SMALL LETTER O WITH HORN AND DOT BELOW;1EE4:1:CAPITAL LETTER U WITH DOT BELOW;
  1EE5:1:SMALL LETTER U WITH DOT BELOW;1EE6:1:CAPITAL LETTER U WITH HOOK ABOVE;
  1EE7:1:SMALL LETTER U WITH HOOK ABOVE;1EE8:1:CAPITAL LETTER U WITH HORN AND ACUTE;
  1EE9:1:SMALL LETTER U WITH HORN AND ACUTE;1EEA:1:CAPITAL LETTER U WITH HORN AND GRAVE;
  1EEB:1:SMALL LETTER U WITH HORN AND GRAVE;1EEC:1:CAPITAL LETTER U WITH HORN AND HOOK ABOVE;
  1EED:1:SMALL LETTER U WITH HORN AND HOOK ABOVE;1EEE:1:CAPITAL LETTER U WITH HORN AND TILDE;
  1EEF:1:SMALL LETTER U WITH HORN AND TILDE;1EF0:1:CAPITAL LETTER U WITH HORN AND DOT BELOW;
  1EF1:1:SMALL LETTER U WITH HORN AND DOT BELOW;1EF2:1:CAPITAL LETTER Y WITH GRAVE;
  1EF3:1:SMALL LETTER Y WITH GRAVE;1EF4:1:CAPITAL LETTER Y WITH DOT BELOW;
  1EF5:1:SMALL LETTER Y WITH DOT BELOW;1EF6:1:CAPITAL LETTER Y WITH HOOK ABOVE;
  1EF7:1:SMALL LETTER Y WITH HOOK ABOVE;1EF8:1:CAPITAL LETTER Y WITH TILDE;
  1EF9:1:SMALL LETTER Y WITH TILDE;1EFA:1:CAPITAL LETTER MIDDLE-WELSH LL;
  1EFB:1:SMALL LETTER MIDDLE-WELSH LL;1EFC:1:CAPITAL LETTER MIDDLE-WELSH V;
  1EFD:1:SMALL LETTER MIDDLE-WELSH V;1EFE:1:CAPITAL LETTER Y WITH LOOP;
  1EFF:1:SMALL LETTER Y WITH LOOP;1F00:0:GREEK SMALL LETTER ALPHA WITH PSILI;1F01:5:DASIA;
  1F02:5:PSILI AND VARIA;1F03:5:DASIA AND VARIA;1F04:5:PSILI AND OXIA;1F05:5:DASIA AND OXIA;
  1F06:5:PSILI AND PERISPOMENI;1F07:5:DASIA AND PERISPOMENI;
  1F08:1:CAPITAL LETTER ALPHA WITH PSILI;1F09:5:DASIA;1F0A:5:PSILI AND VARIA;
  1F0B:5:DASIA AND VARIA;1F0C:5:PSILI AND OXIA;1F0D:5:DASIA AND OXIA;
  1F0E:5:PSILI AND PERISPOMENI;1F0F:5:DASIA AND PERISPOMENI;
  1F10:1:SMALL LETTER EPSILON WITH PSILI;1F11:5:DASIA;1F12:5:PSILI AND VARIA;
  1F13:5:DASIA AND VARIA;1F14:5:PSILI AND OXIA;1F15:5:DASIA AND OXIA;
  1F18:1:CAPITAL LETTER EPSILON WITH PSILI;1F19:5:DASIA;1F1A:5:PSILI AND VARIA;
  1F1B:5:DASIA AND VARIA;1F1C:5:PSILI AND OXIA;1F1D:5:DASIA AND OXIA;
  1F20:1:SMALL LETTER ETA WITH PSILI;1F21:5:DASIA;1F22:5:PSILI AND VARIA;1F23:5:DASIA AND VARIA;
  1F24:5:PSILI AND OXIA;1F25:5:DASIA AND OXIA;1F26:5:PSILI AND PERISPOMENI;
  1F27:5:DASIA AND PERISPOMENI;1F28:1:CAPITAL LETTER ETA WITH PSILI;1F29:5:DASIA;
  1F2A:5:PSILI AND VARIA;1F2B:5:DASIA AND VARIA;1F2C:5:PSILI AND OXIA;1F2D:5:DASIA AND OXIA;
  1F2E:5:PSILI AND PERISPOMENI;1F2F:5:DASIA AND PERISPOMENI;1F30:1:SMALL LETTER IOTA WITH PSILI;
  1F31:5:DASIA;1F32:5:PSILI AND VARIA;1F33:5:DASIA AND VARIA;1F34:5:PSILI AND OXIA;
  1F35:5:DASIA AND OXIA;1F36:5:PSILI AND PERISPOMENI;1F37:5:DASIA AND PERISPOMENI;
  1F38:1:CAPITAL LETTER IOTA WITH PSILI;1F39:5:DASIA;1F3A:5:PSILI AND VARIA;
  1F3B:5:DASIA AND VARIA;1F3C:5:PSILI AND OXIA;1F3D:5:DASIA AND OXIA;
  1F3E:5:PSILI AND PERISPOMENI;1F3F:5:DASIA AND PERISPOMENI;
  1F40:1:SMALL LETTER OMICRON WITH PSILI;1F41:5:DASIA;1F42:5:PSILI AND VARIA;
  1F43:5:DASIA AND VARIA;1F44:5:PSILI AND OXIA;1F45:5:DASIA AND OXIA;
  1F48:1:CAPITAL LETTER OMICRON WITH PSILI;1F49:5:DASIA;1F4A:5:PSILI AND VARIA;
  1F4B:5:DASIA AND VARIA;1F4C:5:PSILI AND OXIA;1F4D:5:DASIA AND OXIA;
  1F50:1:SMALL LETTER UPSILON WITH PSILI;1F51:5:DASIA;1F52:5:PSILI AND VARIA;
  1F53:5:DASIA AND VARIA;1F54:5:PSILI AND OXIA;1F55:5:DASIA AND OXIA;
  1F56:5:PSILI AND PERISPOMENI;1F57:5:DASIA AND PERISPOMENI;
  1F59:1:CAPITAL LETTER UPSILON WITH DASIA;1F5B:6:AND VARIA;1F5D:7:OXIA;1F5F:7:PERISPOMENI;
  1F60:1:SMALL LETTER OMEGA WITH PSILI;1F61:5:DASIA;1F62:5:PSILI AND VARIA;
  1F63:5:DASIA AND VARIA;1F64:5:PSILI AND OXIA;1F65:5:DASIA AND OXIA;
  1F66:5:PSILI AND PERISPOMENI;1F67:5:DASIA AND PERISPOMENI;
  1F68:1:CAPITAL LETTER OMEGA WITH PSILI;1F69:5:DASIA;1F6A:5:PSILI AND VARIA;
  1F6B:5:DASIA AND VARIA;1F6C:5:PSILI AND OXIA;1F6D:5:DASIA AND OXIA;
  1F6E:5:PSILI AND PERISPOMENI;1F6F:5:DASIA AND PERISPOMENI;
  1F70:1:SMALL LETTER ALPHA WITH VARIA;1F71:5:OXIA;1F72:3:EPSILON WITH VARIA;1F73:5:OXIA;
  1F74:3:ETA WITH VARIA;1F75:5:OXIA;1F76:3:IOTA WITH VARIA;1F77:5:OXIA;
  1F78:3:OMICRON WITH VARIA;1F79:5:OXIA;1F7A:3:UPSILON WITH VARIA;1F7B:5:OXIA;
  1F7C:3:OMEGA WITH VARIA;1F7D:5:OXIA;1F80:3:ALPHA WITH PSILI AND YPOGEGRAMMENI;
  1F81:5:DASIA AND YPOGEGRAMMENI;1F82:5:PSILI AND VARIA AND YPOGEGRAMMENI;
  1F83:5:DASIA AND VARIA AND YPOGEGRAMMENI;1F84:5:PSILI AND OXIA AND YPOGEGRAMMENI;
  1F85:5:DASIA AND OXIA AND YPOGEGRAMMENI;1F86:5:PSILI AND PERISPOMENI AND YPOGEGRAMMENI;
  1F87:5:DASIA AND PERISPOMENI AND YPOGEGRAMMENI;
  1F88:1:CAPITAL LETTER ALPHA WITH PSILI AND PROSGEGRAMMENI;1F89:5:DASIA AND PROSGEGRAMMENI;
  1F8A:5:PSILI AND VARIA AND PROSGEGRAMMENI;1F8B:5:DASIA AND VARIA AND PROSGEGRAMMENI;
  1F8C:5:PSILI AND OXIA AND PROSGEGRAMMENI;1F8D:5:DASIA AND OXIA AND PROSGEGRAMMENI;
  1F8E:5:PSILI AND PERISPOMENI AND PROSGEGRAMMENI;
  1F8F:5:DASIA AND PERISPOMENI AND PROSGEGRAMMENI;
  1F90:1:SMALL LETTER ETA WITH PSILI AND YPOGEGRAMMENI;1F91:5:DASIA AND YPOGEGRAMMENI;
  1F92:5:PSILI AND VARIA AND YPOGEGRAMMENI;1F93:5:DASIA AND VARIA AND YPOGEGRAMMENI;
  1F94:5:PSILI AND OXIA AND YPOGEGRAMMENI;1F95:5:DASIA AND OXIA AND YPOGEGRAMMENI;
  1F96:5:PSILI AND PERISPOMENI AND YPOGEGRAMMENI;1F97:5:DASIA AND PERISPOMENI AND YPOGEGRAMMENI;
  1F98:1:CAPITAL LETTER ETA WITH PSILI AND PROSGEGRAMMENI;1F99:5:DASIA AND PROSGEGRAMMENI;
  1F9A:5:PSILI AND VARIA AND PROSGEGRAMMENI;1F9B:5:DASIA AND VARIA AND PROSGEGRAMMENI;
  1F9C:5:PSILI AND OXIA AND PROSGEGRAMMENI;1F9D:5:DASIA AND OXIA AND PROSGEGRAMMENI;
  1F9E:5:PSILI AND PERISPOMENI AND PROSGEGRAMMENI;
  1F9F:5:DASIA AND PERISPOMENI AND PROSGEGRAMMENI;
  1FA0:1:SMALL LETTER OMEGA WITH PSILI AND YPOGEGRAMMENI;1FA1:5:DASIA AND YPOGEGRAMMENI;
  1FA2:5:PSILI AND VARIA AND YPOGEGRAMMENI;1FA3:5:DASIA AND VARIA AND YPOGEGRAMMENI;
  1FA4:5:PSILI AND OXIA AND YPOGEGRAMMENI;1FA5:5:DASIA AND OXIA AND YPOGEGRAMMENI;
  1FA6:5:PSILI AND PERISPOMENI AND YPOGEGRAMMENI;1FA7:5:DASIA AND PERISPOMENI AND YPOGEGRAMMENI;
  1FA8:1:CAPITAL LETTER OMEGA WITH PSILI AND PROSGEGRAMMENI;1FA9:5:DASIA AND PROSGEGRAMMENI;
  1FAA:5:PSILI AND VARIA AND PROSGEGRAMMENI;1FAB:5:DASIA AND VARIA AND PROSGEGRAMMENI;
  1FAC:5:PSILI AND OXIA AND PROSGEGRAMMENI;1FAD:5:DASIA AND OXIA AND PROSGEGRAMMENI;
  1FAE:5:PSILI AND PERISPOMENI AND PROSGEGRAMMENI;
  1FAF:5:DASIA AND PERISPOMENI AND PROSGEGRAMMENI;1FB0:1:SMALL LETTER ALPHA WITH VRACHY;
  1FB1:5:MACRON;1FB2:5:VARIA AND YPOGEGRAMMENI;1FB3:5:YPOGEGRAMMENI;
  1FB4:5:OXIA AND YPOGEGRAMMENI;1FB6:5:PERISPOMENI;1FB7:6:AND YPOGEGRAMMENI;
  1FB8:1:CAPITAL LETTER ALPHA WITH VRACHY;1FB9:5:MACRON;1FBA:5:VARIA;1FBB:5:OXIA;
  1FBC:5:PROSGEGRAMMENI;1FBD:1:KORONIS;1FBE:1:PROSGEGRAMMENI;1FBF:1:PSILI;1FC0:1:PERISPOMENI;
  1FC1:1:DIALYTIKA AND PERISPOMENI;1FC2:1:SMALL LETTER ETA WITH VARIA AND YPOGEGRAMMENI;
  1FC3:5:YPOGEGRAMMENI;1FC4:5:OXIA AND YPOGEGRAMMENI;1FC6:5:PERISPOMENI;
  1FC7:6:AND YPOGEGRAMMENI;1FC8:1:CAPITAL LETTER EPSILON WITH VARIA;1FC9:5:OXIA;
  1FCA:3:ETA WITH VARIA;1FCB:5:OXIA;1FCC:5:PROSGEGRAMMENI;1FCD:1:PSILI AND VARIA;1FCE:3:OXIA;
  1FCF:3:PERISPOMENI;1FD0:1:SMALL LETTER IOTA WITH VRACHY;1FD1:5:MACRON;
  1FD2:5:DIALYTIKA AND VARIA;1FD3:7:OXIA;1FD6:5:PERISPOMENI;1FD7:5:DIALYTIKA AND PERISPOMENI;
  1FD8:1:CAPITAL LETTER IOTA WITH VRACHY;1FD9:5:MACRON;1FDA:5:VARIA;1FDB:5:OXIA;
  1FDD:1:DASIA AND VARIA;1FDE:3:OXIA;1FDF:3:PERISPOMENI;1FE0:1:SMALL LETTER UPSILON WITH VRACHY;
  1FE1:5:MACRON;1FE2:5:DIALYTIKA AND VARIA;1FE3:7:OXIA;1FE4:3:RHO WITH PSILI;1FE5:5:DASIA;
  1FE6:3:UPSILON WITH PERISPOMENI;1FE7:5:DIALYTIKA AND PERISPOMENI;
  1FE8:1:CAPITAL LETTER UPSILON WITH VRACHY;1FE9:5:MACRON;1FEA:5:VARIA;1FEB:5:OXIA;
  1FEC:3:RHO WITH DASIA;1FED:1:DIALYTIKA AND VARIA;1FEE:3:OXIA;1FEF:1:VARIA;
  1FF2:1:SMALL LETTER OMEGA WITH VARIA AND YPOGEGRAMMENI;1FF3:5:YPOGEGRAMMENI;
  1FF4:5:OXIA AND YPOGEGRAMMENI;1FF6:5:PERISPOMENI;1FF7:6:AND YPOGEGRAMMENI;
  1FF8:1:CAPITAL LETTER OMICRON WITH VARIA;1FF9:5:OXIA;1FFA:3:OMEGA WITH VARIA;1FFB:5:OXIA;
  1FFC:5:PROSGEGRAMMENI;1FFD:1:OXIA;1FFE:1:DASIA;2000:0:EN QUAD;2001:0:EM QUAD;2002:0:EN SPACE;
  2003:0:EM SPACE;2004:0:THREE-PER-EM SPACE;2005:0:FOUR-PER-EM SPACE;2006:0:SIX-PER-EM SPACE;
  2007:0:FIGURE SPACE;2008:0:PUNCTUATION SPACE;2009:0:THIN SPACE;200A:0:HAIR SPACE;
  200B:0:ZERO WIDTH SPACE;200C:2:NON-JOINER;200D:2:JOINER;200E:0:LEFT-TO-RIGHT MARK;
  200F:0:RIGHT-TO-LEFT MARK;2010:0:HYPHEN;2011:0:NON-BREAKING HYPHEN;2012:0:FIGURE DASH;
  2013:0:EN DASH;2014:0:EM DASH;2015:0:HORIZONTAL BAR;2016:0:DOUBLE VERTICAL LINE;
  2017:1:LOW LINE;2018:0:LEFT SINGLE QUOTATION MARK;2019:0:RIGHT SINGLE QUOTATION MARK;
  201A:0:SINGLE LOW-9 QUOTATION MARK;201B:1:HIGH-REVERSED-9 QUOTATION MARK;
  201C:0:LEFT DOUBLE QUOTATION MARK;201D:0:RIGHT DOUBLE QUOTATION MARK;
  201E:0:DOUBLE LOW-9 QUOTATION MARK;201F:1:HIGH-REVERSED-9 QUOTATION MARK;2020:0:DAGGER;
  2021:0:DOUBLE DAGGER;2022:0:BULLET;2023:0:TRIANGULAR BULLET;2024:0:ONE DOT LEADER;
  2025:0:TWO DOT LEADER;2026:0:HORIZONTAL ELLIPSIS;2027:0:HYPHENATION POINT;
  2028:0:LINE SEPARATOR;2029:0:PARAGRAPH SEPARATOR;202A:0:LEFT-TO-RIGHT EMBEDDING;
  202B:0:RIGHT-TO-LEFT EMBEDDING;202C:0:POP DIRECTIONAL FORMATTING;
  202D:0:LEFT-TO-RIGHT OVERRIDE;202E:0:RIGHT-TO-LEFT OVERRIDE;202F:0:NARROW NO-BREAK SPACE;
  2030:0:PER MILLE SIGN;2031:1:TEN THOUSAND SIGN;2032:0:PRIME;2033:0:DOUBLE PRIME;
  2034:0:TRIPLE PRIME;2035:0:REVERSED PRIME;2036:1:DOUBLE PRIME;2037:1:TRIPLE PRIME;
  2038:0:CARET;2039:0:SINGLE LEFT-POINTING ANGLE QUOTATION MARK;
  203A:1:RIGHT-POINTING ANGLE QUOTATION MARK;203B:0:REFERENCE MARK;
  203C:0:DOUBLE EXCLAMATION MARK;203D:0:INTERROBANG;203E:0:OVERLINE;203F:0:UNDERTIE;
  2040:0:CHARACTER TIE;2041:0:CARET INSERTION POINT;2042:0:ASTERISM;2043:0:HYPHEN BULLET;
  2044:0:FRACTION SLASH;2045:0:LEFT SQUARE BRACKET WITH QUILL;
  2046:0:RIGHT SQUARE BRACKET WITH QUILL;2047:0:DOUBLE QUESTION MARK;
  2048:0:QUESTION EXCLAMATION MARK;2049:0:EXCLAMATION QUESTION MARK;204A:0:TIRONIAN SIGN ET;
  204B:0:REVERSED PILCROW SIGN;204C:0:BLACK LEFTWARDS BULLET;204D:1:RIGHTWARDS BULLET;
  204E:0:LOW ASTERISK;204F:0:REVERSED SEMICOLON;2050:0:CLOSE UP;
  2051:0:TWO ASTERISKS ALIGNED VERTICALLY;2052:0:COMMERCIAL MINUS SIGN;2053:0:SWUNG DASH;
  2054:0:INVERTED UNDERTIE;2055:0:FLOWER PUNCTUATION MARK;2056:0:THREE DOT PUNCTUATION;
  2057:0:QUADRUPLE PRIME;2058:0:FOUR DOT PUNCTUATION;2059:0:FIVE DOT PUNCTUATION;
  205A:0:TWO DOT PUNCTUATION;205B:0:FOUR DOT MARK;205C:0:DOTTED CROSS;205D:0:TRICOLON;
  205E:0:VERTICAL FOUR DOTS;205F:0:MEDIUM MATHEMATICAL SPACE;2060:0:WORD JOINER;
  2061:0:FUNCTION APPLICATION;2062:0:INVISIBLE TIMES;2063:1:SEPARATOR;2064:1:PLUS;
  2066:0:LEFT-TO-RIGHT ISOLATE;2067:0:RIGHT-TO-LEFT ISOLATE;2068:0:FIRST STRONG ISOLATE;
  2069:0:POP DIRECTIONAL ISOLATE;206A:0:INHIBIT SYMMETRIC SWAPPING;
  206B:0:ACTIVATE SYMMETRIC SWAPPING;206C:0:INHIBIT ARABIC FORM SHAPING;
  206D:0:ACTIVATE ARABIC FORM SHAPING;206E:0:NATIONAL DIGIT SHAPES;206F:0:NOMINAL DIGIT SHAPES;
  2070:0:SUPERSCRIPT ZERO;2071:1:LATIN SMALL LETTER I;2074:1:FOUR;2075:1:FIVE;2076:1:SIX;
  2077:1:SEVEN;2078:1:EIGHT;2079:1:NINE;207A:1:PLUS SIGN;207B:1:MINUS;207C:1:EQUALS SIGN;
  207D:1:LEFT PARENTHESIS;207E:1:RIGHT PARENTHESIS;207F:1:LATIN SMALL LETTER N;
  2080:0:SUBSCRIPT ZERO;2081:1:ONE;2082:1:TWO;2083:1:THREE;2084:1:FOUR;2085:1:FIVE;2086:1:SIX;
  2087:1:SEVEN;2088:1:EIGHT;2089:1:NINE;208A:1:PLUS SIGN;208B:1:MINUS;208C:1:EQUALS SIGN;
  208D:1:LEFT PARENTHESIS;208E:1:RIGHT PARENTHESIS;2090:0:LATIN SUBSCRIPT SMALL LETTER A;
  2091:4:E;2092:4:O;2093:4:X;2094:4:SCHWA;2095:4:H;2096:4:K;2097:4:L;2098:4:M;2099:4:N;209A:4:P;
  209B:4:S;209C:4:T;2190:0:LEFTWARDS ARROW;2191:0:UPWARDS ARROW;2192:0:RIGHTWARDS ARROW;
  2193:0:DOWNWARDS ARROW;2194:0:LEFT RIGHT ARROW;2195:0:UP DOWN ARROW;2196:0:NORTH WEST ARROW;
  2197:1:EAST ARROW;2198:0:SOUTH EAST ARROW;2199:1:WEST ARROW;
  219A:0:LEFTWARDS ARROW WITH STROKE;219B:0:RIGHTWARDS ARROW WITH STROKE;
  219C:0:LEFTWARDS WAVE ARROW;219D:0:RIGHTWARDS WAVE ARROW;219E:0:LEFTWARDS TWO HEADED ARROW;
  219F:0:UPWARDS TWO HEADED ARROW;21A0:0:RIGHTWARDS TWO HEADED ARROW;
  21A1:0:DOWNWARDS TWO HEADED ARROW;21A2:0:LEFTWARDS ARROW WITH TAIL;
  21A3:0:RIGHTWARDS ARROW WITH TAIL;21A4:0:LEFTWARDS ARROW FROM BAR;
  21A5:0:UPWARDS ARROW FROM BAR;21A6:0:RIGHTWARDS ARROW FROM BAR;
  21A7:0:DOWNWARDS ARROW FROM BAR;21A8:0:UP DOWN ARROW WITH BASE;
  21A9:0:LEFTWARDS ARROW WITH HOOK;21AA:0:RIGHTWARDS ARROW WITH HOOK;
  21AB:0:LEFTWARDS ARROW WITH LOOP;21AC:0:RIGHTWARDS ARROW WITH LOOP;
  21AD:0:LEFT RIGHT WAVE ARROW;21AE:2:ARROW WITH STROKE;21AF:0:DOWNWARDS ZIGZAG ARROW;
  21B0:0:UPWARDS ARROW WITH TIP LEFTWARDS;21B1:4:RIGHTWARDS;
  21B2:0:DOWNWARDS ARROW WITH TIP LEFTWARDS;21B3:4:RIGHTWARDS;
  21B4:0:RIGHTWARDS ARROW WITH CORNER DOWNWARDS;21B5:0:DOWNWARDS ARROW WITH CORNER LEFTWARDS;
  21B6:0:ANTICLOCKWISE TOP SEMICIRCLE ARROW;21B7:0:CLOCKWISE TOP SEMICIRCLE ARROW;
  21B8:0:NORTH WEST ARROW TO LONG BAR;
  21B9:0:LEFTWARDS ARROW TO BAR OVER RIGHTWARDS ARROW TO BAR;
  21BA:0:ANTICLOCKWISE OPEN CIRCLE ARROW;21BB:0:CLOCKWISE OPEN CIRCLE ARROW;
  21BC:0:LEFTWARDS HARPOON WITH BARB UPWARDS;21BD:4:DOWNWARDS;
  21BE:0:UPWARDS HARPOON WITH BARB RIGHTWARDS;21BF:4:LEFTWARDS;
  21C0:0:RIGHTWARDS HARPOON WITH BARB UPWARDS;21C1:4:DOWNWARDS;
  21C2:0:DOWNWARDS HARPOON WITH BARB RIGHTWARDS;21C3:4:LEFTWARDS;
  21C4:0:RIGHTWARDS ARROW OVER LEFTWARDS ARROW;
  21C5:0:UPWARDS ARROW LEFTWARDS OF DOWNWARDS ARROW;
  21C6:0:LEFTWARDS ARROW OVER RIGHTWARDS ARROW;21C7:1:PAIRED ARROWS;
  21C8:0:UPWARDS PAIRED ARROWS;21C9:0:RIGHTWARDS PAIRED ARROWS;21CA:0:DOWNWARDS PAIRED ARROWS;
  21CB:0:LEFTWARDS HARPOON OVER RIGHTWARDS HARPOON;
  21CC:0:RIGHTWARDS HARPOON OVER LEFTWARDS HARPOON;21CD:0:LEFTWARDS DOUBLE ARROW WITH STROKE;
  21CE:0:LEFT RIGHT DOUBLE ARROW WITH STROKE;21CF:0:RIGHTWARDS DOUBLE ARROW WITH STROKE;
  21D0:0:LEFTWARDS DOUBLE ARROW;21D1:0:UPWARDS DOUBLE ARROW;21D2:0:RIGHTWARDS DOUBLE ARROW;
  21D3:0:DOWNWARDS DOUBLE ARROW;21D4:0:LEFT RIGHT DOUBLE ARROW;21D5:0:UP DOWN DOUBLE ARROW;
  21D6:0:NORTH WEST DOUBLE ARROW;21D7:1:EAST DOUBLE ARROW;21D8:0:SOUTH EAST DOUBLE ARROW;
  21D9:1:WEST DOUBLE ARROW;21DA:0:LEFTWARDS TRIPLE ARROW;21DB:0:RIGHTWARDS TRIPLE ARROW;
  21DC:0:LEFTWARDS SQUIGGLE ARROW;21DD:0:RIGHTWARDS SQUIGGLE ARROW;
  21DE:0:UPWARDS ARROW WITH DOUBLE STROKE;21DF:0:DOWNWARDS ARROW WITH DOUBLE STROKE;
  21E0:0:LEFTWARDS DASHED ARROW;21E1:0:UPWARDS DASHED ARROW;21E2:0:RIGHTWARDS DASHED ARROW;
  21E3:0:DOWNWARDS DASHED ARROW;21E4:0:LEFTWARDS ARROW TO BAR;21E5:0:RIGHTWARDS ARROW TO BAR;
  21E6:0:LEFTWARDS WHITE ARROW;21E7:0:UPWARDS WHITE ARROW;21E8:0:RIGHTWARDS WHITE ARROW;
  21E9:0:DOWNWARDS WHITE ARROW;21EA:0:UPWARDS WHITE ARROW FROM BAR;21EB:3:ON PEDESTAL;
  21EC:5:WITH HORIZONTAL BAR;21ED:6:VERTICAL BAR;21EE:2:DOUBLE ARROW;21EF:4:ON PEDESTAL;
  21F0:0:RIGHTWARDS WHITE ARROW FROM WALL;21F1:0:NORTH WEST ARROW TO CORNER;
  21F2:0:SOUTH EAST ARROW TO CORNER;21F3:0:UP DOWN WHITE ARROW;
  21F4:0:RIGHT ARROW WITH SMALL CIRCLE;21F5:0:DOWNWARDS ARROW LEFTWARDS OF UPWARDS ARROW;
  21F6:0:THREE RIGHTWARDS ARROWS;21F7:0:LEFTWARDS ARROW WITH VERTICAL STROKE;
  21F8:0:RIGHTWARDS ARROW WITH VERTICAL STROKE;21F9:0:LEFT RIGHT ARROW WITH VERTICAL STROKE;
  21FA:0:LEFTWARDS ARROW WITH DOUBLE VERTICAL STROKE;
  21FB:0:RIGHTWARDS ARROW WITH DOUBLE VERTICAL STROKE;
  21FC:0:LEFT RIGHT ARROW WITH DOUBLE VERTICAL STROKE;21FD:0:LEFTWARDS OPEN-HEADED ARROW;
  21FE:0:RIGHTWARDS OPEN-HEADED ARROW;21FF:0:LEFT RIGHT OPEN-HEADED ARROW;
  2C60:0:LATIN CAPITAL LETTER L WITH DOUBLE BAR;2C61:1:SMALL LETTER L WITH DOUBLE BAR;
  2C62:1:CAPITAL LETTER L WITH MIDDLE TILDE;2C63:3:P WITH STROKE;2C64:3:R WITH TAIL;
  2C65:1:SMALL LETTER A WITH STROKE;2C66:3:T WITH DIAGONAL STROKE;
  2C67:1:CAPITAL LETTER H WITH DESCENDER;2C68:1:SMALL LETTER H WITH DESCENDER;
  2C69:1:CAPITAL LETTER K WITH DESCENDER;2C6A:1:SMALL LETTER K WITH DESCENDER;
  2C6B:1:CAPITAL LETTER Z WITH DESCENDER;2C6C:1:SMALL LETTER Z WITH DESCENDER;
  2C6D:1:CAPITAL LETTER ALPHA;2C6E:3:M WITH HOOK;2C6F:3:TURNED A;2C70:4:ALPHA;
  2C71:1:SMALL LETTER V WITH RIGHT HOOK;2C72:1:CAPITAL LETTER W WITH HOOK;
  2C73:1:SMALL LETTER W WITH HOOK;2C74:3:V WITH CURL;2C75:1:CAPITAL LETTER HALF H;
  2C76:1:SMALL LETTER HALF H;2C77:3:TAILLESS PHI;2C78:3:E WITH NOTCH;2C79:3:TURNED R WITH TAIL;
  2C7A:3:O WITH LOW RING INSIDE;2C7B:1:LETTER SMALL CAPITAL TURNED E;
  2C7C:1:SUBSCRIPT SMALL LETTER J;2C7D:0:MODIFIER LETTER CAPITAL V;
  2C7E:0:LATIN CAPITAL LETTER S WITH SWASH TAIL;2C7F:3:Z WITH SWASH TAIL;
  A700:0:MODIFIER LETTER CHINESE TONE YIN PING;A701:4:YANG PING;A702:4:YIN SHANG;
  A703:4:YANG SHANG;A704:4:YIN QU;A705:4:YANG QU;A706:4:YIN RU;A707:4:YANG RU;
  A708:2:EXTRA-HIGH DOTTED TONE BAR;A709:2:HIGH DOTTED TONE BAR;A70A:2:MID DOTTED TONE BAR;
  A70B:2:LOW DOTTED TONE BAR;A70C:2:EXTRA-LOW DOTTED TONE BAR;
  A70D:2:EXTRA-HIGH DOTTED LEFT-STEM TONE BAR;A70E:2:HIGH DOTTED LEFT-STEM TONE BAR;
  A70F:2:MID DOTTED LEFT-STEM TONE BAR;A710:2:LOW DOTTED LEFT-STEM TONE BAR;
  A711:2:EXTRA-LOW DOTTED LEFT-STEM TONE BAR;A712:2:EXTRA-HIGH LEFT-STEM TONE BAR;
  A713:2:HIGH LEFT-STEM TONE BAR;A714:2:MID LEFT-STEM TONE BAR;A715:2:LOW LEFT-STEM TONE BAR;
  A716:2:EXTRA-LOW LEFT-STEM TONE BAR;A717:2:DOT VERTICAL BAR;A718:3:SLASH;
  A719:3:HORIZONTAL BAR;A71A:2:LOWER RIGHT CORNER ANGLE;A71B:2:RAISED UP ARROW;
  A71C:3:DOWN ARROW;A71D:3:EXCLAMATION MARK;A71E:3:INVERTED EXCLAMATION MARK;
  A71F:2:LOW INVERTED EXCLAMATION MARK;A720:2:STRESS AND HIGH TONE;A721:4:LOW TONE;
  A722:0:LATIN CAPITAL LETTER EGYPTOLOGICAL ALEF;A723:1:SMALL LETTER EGYPTOLOGICAL ALEF;
  A724:1:CAPITAL LETTER EGYPTOLOGICAL AIN;A725:1:SMALL LETTER EGYPTOLOGICAL AIN;
  A726:1:CAPITAL LETTER HENG;A727:1:SMALL LETTER HENG;A728:1:CAPITAL LETTER TZ;
  A729:1:SMALL LETTER TZ;A72A:1:CAPITAL LETTER TRESILLO;A72B:1:SMALL LETTER TRESILLO;
  A72C:1:CAPITAL LETTER CUATRILLO;A72D:1:SMALL LETTER CUATRILLO;
  A72E:1:CAPITAL LETTER CUATRILLO WITH COMMA;A72F:1:SMALL LETTER CUATRILLO WITH COMMA;
  A730:1:LETTER SMALL CAPITAL F;A731:4:S;A732:1:CAPITAL LETTER AA;A733:1:SMALL LETTER AA;
  A734:1:CAPITAL LETTER AO;A735:1:SMALL LETTER AO;A736:1:CAPITAL LETTER AU;
  A737:1:SMALL LETTER AU;A738:1:CAPITAL LETTER AV;A739:1:SMALL LETTER AV;
  A73A:1:CAPITAL LETTER AV WITH HORIZONTAL BAR;A73B:1:SMALL LETTER AV WITH HORIZONTAL BAR;
  A73C:1:CAPITAL LETTER AY;A73D:1:SMALL LETTER AY;A73E:1:CAPITAL LETTER REVERSED C WITH DOT;
  A73F:1:SMALL LETTER REVERSED C WITH DOT;A740:1:CAPITAL LETTER K WITH STROKE;
  A741:1:SMALL LETTER K WITH STROKE;A742:1:CAPITAL LETTER K WITH DIAGONAL STROKE;
  A743:1:SMALL LETTER K WITH DIAGONAL STROKE;
  A744:1:CAPITAL LETTER K WITH STROKE AND DIAGONAL STROKE;
  A745:1:SMALL LETTER K WITH STROKE AND DIAGONAL STROKE;A746:1:CAPITAL LETTER BROKEN L;
  A747:1:SMALL LETTER BROKEN L;A748:1:CAPITAL LETTER L WITH HIGH STROKE;
  A749:1:SMALL LETTER L WITH HIGH STROKE;A74A:1:CAPITAL LETTER O WITH LONG STROKE OVERLAY;
  A74B:1:SMALL LETTER O WITH LONG STROKE OVERLAY;A74C:1:CAPITAL LETTER O WITH LOOP;
  A74D:1:SMALL LETTER O WITH LOOP;A74E:1:CAPITAL LETTER OO;A74F:1:SMALL LETTER OO;
  A750:1:CAPITAL LETTER P WITH STROKE THROUGH DESCENDER;
  A751:1:SMALL LETTER P WITH STROKE THROUGH DESCENDER;A752:1:CAPITAL LETTER P WITH FLOURISH;
  A753:1:SMALL LETTER P WITH FLOURISH;A754:1:CAPITAL LETTER P WITH SQUIRREL TAIL;
  A755:1:SMALL LETTER P WITH SQUIRREL TAIL;
  A756:1:CAPITAL LETTER Q WITH STROKE THROUGH DESCENDER;
  A757:1:SMALL LETTER Q WITH STROKE THROUGH DESCENDER;
  A758:1:CAPITAL LETTER Q WITH DIAGONAL STROKE;A759:1:SMALL LETTER Q WITH DIAGONAL STROKE;
  A75A:1:CAPITAL LETTER R ROTUNDA;A75B:1:SMALL LETTER R ROTUNDA;
  A75C:1:CAPITAL LETTER RUM ROTUNDA;A75D:1:SMALL LETTER RUM ROTUNDA;
  A75E:1:CAPITAL LETTER V WITH DIAGONAL STROKE;A75F:1:SMALL LETTER V WITH DIAGONAL STROKE;
  A760:1:CAPITAL LETTER VY;A761:1:SMALL LETTER VY;A762:1:CAPITAL LETTER VISIGOTHIC Z;
  A763:1:SMALL LETTER VISIGOTHIC Z;A764:1:CAPITAL LETTER THORN WITH STROKE;
  A765:1:SMALL LETTER THORN WITH STROKE;
  A766:1:CAPITAL LETTER THORN WITH STROKE THROUGH DESCENDER;
  A767:1:SMALL LETTER THORN WITH STROKE THROUGH DESCENDER;A768:1:CAPITAL LETTER VEND;
  A769:1:SMALL LETTER VEND;A76A:1:CAPITAL LETTER ET;A76B:1:SMALL LETTER ET;
  A76C:1:CAPITAL LETTER IS;A76D:1:SMALL LETTER IS;A76E:1:CAPITAL LETTER CON;
  A76F:1:SMALL LETTER CON;A770:0:MODIFIER LETTER US;A771:0:LATIN SMALL LETTER DUM;A772:3:LUM;
  A773:3:MUM;A774:3:NUM;A775:3:RUM;A776:1:LETTER SMALL CAPITAL RUM;A777:1:SMALL LETTER TUM;
  A778:3:UM;A779:1:CAPITAL LETTER INSULAR D;A77A:1:SMALL LETTER INSULAR D;
  A77B:1:CAPITAL LETTER INSULAR F;A77C:1:SMALL LETTER INSULAR F;A77D:1:CAPITAL LETTER INSULAR G;
  A77E:3:TURNED INSULAR G;A77F:1:SMALL LETTER TURNED INSULAR G;A780:1:CAPITAL LETTER TURNED L;
  A781:1:SMALL LETTER TURNED L;A782:1:CAPITAL LETTER INSULAR R;A783:1:SMALL LETTER INSULAR R;
  A784:1:CAPITAL LETTER INSULAR S;A785:1:SMALL LETTER INSULAR S;A786:1:CAPITAL LETTER INSULAR T;
  A787:1:SMALL LETTER INSULAR T;A788:0:MODIFIER LETTER LOW CIRCUMFLEX ACCENT;A789:2:COLON;
  A78A:2:SHORT EQUALS SIGN;A78B:0:LATIN CAPITAL LETTER SALTILLO;A78C:1:SMALL LETTER SALTILLO;
  A78D:1:CAPITAL LETTER TURNED H;A78E:1:SMALL LETTER L WITH RETROFLEX HOOK AND BELT;
  A78F:1:LETTER SINOLOGICAL DOT;A790:1:CAPITAL LETTER N WITH DESCENDER;
  A791:1:SMALL LETTER N WITH DESCENDER;A792:1:CAPITAL LETTER C WITH BAR;
  A793:1:SMALL LETTER C WITH BAR;A794:5:PALATAL HOOK;A795:3:H WITH PALATAL HOOK;
  A796:1:CAPITAL LETTER B WITH FLOURISH;A797:1:SMALL LETTER B WITH FLOURISH;
  A798:1:CAPITAL LETTER F WITH STROKE;A799:1:SMALL LETTER F WITH STROKE;
  A79A:1:CAPITAL LETTER VOLAPUK AE;A79B:1:SMALL LETTER VOLAPUK AE;
  A79C:1:CAPITAL LETTER VOLAPUK OE;A79D:1:SMALL LETTER VOLAPUK OE;
  A79E:1:CAPITAL LETTER VOLAPUK UE;A79F:1:SMALL LETTER VOLAPUK UE;
  A7A0:1:CAPITAL LETTER G WITH OBLIQUE STROKE;A7A1:1:SMALL LETTER G WITH OBLIQUE STROKE;
  A7A2:1:CAPITAL LETTER K WITH OBLIQUE STROKE;A7A3:1:SMALL LETTER K WITH OBLIQUE STROKE;
  A7A4:1:CAPITAL LETTER N WITH OBLIQUE STROKE;A7A5:1:SMALL LETTER N WITH OBLIQUE STROKE;
  A7A6:1:CAPITAL LETTER R WITH OBLIQUE STROKE;A7A7:1:SMALL LETTER R WITH OBLIQUE STROKE;
  A7A8:1:CAPITAL LETTER S WITH OBLIQUE STROKE;A7A9:1:SMALL LETTER S WITH OBLIQUE STROKE;
  A7AA:1:CAPITAL LETTER H WITH HOOK;A7AB:3:REVERSED OPEN E;A7AC:3:SCRIPT G;A7AD:3:L WITH BELT;
  A7AE:3:SMALL CAPITAL I;A7AF:1:LETTER SMALL CAPITAL Q;A7B0:1:CAPITAL LETTER TURNED K;A7B1:4:T;
  A7B2:3:J WITH CROSSED-TAIL;A7B3:3:CHI;A7B4:3:BETA;A7B5:1:SMALL LETTER BETA;
  A7B6:1:CAPITAL LETTER OMEGA;A7B7:1:SMALL LETTER OMEGA;A7B8:1:CAPITAL LETTER U WITH STROKE;
  A7B9:1:SMALL LETTER U WITH STROKE;A7BA:1:CAPITAL LETTER GLOTTAL A;
  A7BB:1:SMALL LETTER GLOTTAL A;A7BC:1:CAPITAL LETTER GLOTTAL I;A7BD:1:SMALL LETTER GLOTTAL I;
  A7BE:1:CAPITAL LETTER GLOTTAL U;A7BF:1:SMALL LETTER GLOTTAL U;
  A7C0:1:CAPITAL LETTER OLD POLISH O;A7C1:1:SMALL LETTER OLD POLISH O;
  A7C2:1:CAPITAL LETTER ANGLICANA W;A7C3:1:SMALL LETTER ANGLICANA W;
  A7C4:1:CAPITAL LETTER C WITH PALATAL HOOK;A7C5:3:S WITH HOOK;A7C6:3:Z WITH PALATAL HOOK;
  A7C7:3:D WITH SHORT STROKE OVERLAY;A7C8:1:SMALL LETTER D WITH SHORT STROKE OVERLAY;
  A7C9:1:CAPITAL LETTER S WITH SHORT STROKE OVERLAY;
  A7CA:1:SMALL LETTER S WITH SHORT STROKE OVERLAY;A7D0:1:CAPITAL LETTER CLOSED INSULAR G;
  A7D1:1:SMALL LETTER CLOSED INSULAR G;A7D3:3:DOUBLE THORN;A7D5:4:WYNN;
  A7D6:1:CAPITAL LETTER MIDDLE SCOTS S;A7D7:1:SMALL LETTER MIDDLE SCOTS S;
  A7D8:1:CAPITAL LETTER SIGMOID S;A7D9:1:SMALL LETTER SIGMOID S;
  A7F2:0:MODIFIER LETTER CAPITAL C;A7F3:3:F;A7F4:3:Q;
  A7F5:0:LATIN CAPITAL LETTER REVERSED HALF H;A7F6:1:SMALL LETTER REVERSED HALF H;
  A7F7:1:EPIGRAPHIC LETTER SIDEWAYS I;A7F8:0:MODIFIER LETTER CAPITAL H WITH STROKE;
  A7F9:2:SMALL LIGATURE OE;A7FA:0:LATIN LETTER SMALL CAPITAL TURNED M;
  A7FB:1:EPIGRAPHIC LETTER REVERSED F;A7FC:4:P;A7FD:3:INVERTED M;A7FE:3:I LONGA;
  A7FF:3:ARCHAIC M;AB30:1:SMALL LETTER BARRED ALPHA;AB31:3:A REVERSED-SCHWA;
  AB32:3:BLACKLETTER E;AB33:3:BARRED E;AB34:3:E WITH FLOURISH;AB35:3:LENIS F;
  AB36:3:SCRIPT G WITH CROSSED-TAIL;AB37:3:L WITH INVERTED LAZY S;AB38:5:DOUBLE MIDDLE TILDE;
  AB39:5:MIDDLE RING;AB3A:3:M WITH CROSSED-TAIL;AB3B:3:N WITH CROSSED-TAIL;
  AB3C:3:ENG WITH CROSSED-TAIL;AB3D:3:BLACKLETTER O;AB3E:5:WITH STROKE;
  AB3F:3:OPEN O WITH STROKE;AB40:3:INVERTED OE;AB41:3:TURNED OE WITH STROKE;
  AB42:6:HORIZONTAL STROKE;AB43:4:O OPEN-O;AB44:6:WITH STROKE;AB45:3:STIRRUP R;
  AB46:1:LETTER SMALL CAPITAL R WITH RIGHT LEG;AB47:1:SMALL LETTER R WITHOUT HANDLE;
  AB48:3:DOUBLE R;AB49:3:R WITH CROSSED-TAIL;AB4A:3:DOUBLE R WITH CROSSED-TAIL;AB4B:3:SCRIPT R;
  AB4C:5:WITH RING;AB4D:3:BASELINE ESH;AB4E:3:U WITH SHORT RIGHT LEG;
  AB4F:4:BAR WITH SHORT RIGHT LEG;AB50:3:UI;AB51:3:TURNED UI;AB52:3:U WITH LEFT HOOK;AB53:3:CHI;
  AB54:4:WITH LOW RIGHT RING;AB55:6:LEFT SERIF;AB56:3:X WITH LOW RIGHT RING;
  AB57:5:LONG LEFT LEG;AB58:8:AND LOW RIGHT RING;AB59:8:WITH SERIF;
  AB5A:3:Y WITH SHORT RIGHT LEG;AB5B:0:MODIFIER BREVE WITH INVERTED BREVE;
  AB5C:1:LETTER SMALL HENG;AB5D:3:L WITH INVERTED LAZY S;AB5E:5:MIDDLE TILDE;
  AB5F:3:U WITH LEFT HOOK;AB60:0:LATIN SMALL LETTER SAKHA YAT;AB61:3:IOTIFIED E;AB62:3:OPEN OE;
  AB63:3:UO;AB64:3:INVERTED ALPHA;AB65:0:GREEK LETTER SMALL CAPITAL OMEGA;
  AB66:0:LATIN SMALL LETTER DZ DIGRAPH WITH RETROFLEX HOOK;
  AB67:3:TS DIGRAPH WITH RETROFLEX HOOK;AB68:3:TURNED R WITH MIDDLE TILDE;
  AB69:0:MODIFIER LETTER SMALL TURNED W;AB6A:2:LEFT TACK;AB6B:2:RIGHT TACK;
  FB00:0:LATIN SMALL LIGATURE FF;FB01:3:FI;FB02:3:FL;FB03:3:FFI;FB04:3:FFL;FB05:3:LONG S T;
  FB06:3:ST;0:0:NULL;1:0:START OF HEADING;2:2:TEXT;3:0:END OF TEXT;4:2:TRANSMISSION;5:0:ENQUIRY;
  6:0:ACKNOWLEDGE;7:0:ALERT;1F514:0:BELL;8:0:BACKSPACE;9:0:CHARACTER TABULATION;
  9:0:HORIZONTAL TABULATION;A:0:LINE FEED;A:0:NEW LINE;A:0:END OF LINE;B:0:LINE TABULATION;
  B:0:VERTICAL TABULATION;C:0:FORM FEED;D:0:CARRIAGE RETURN;E:0:SHIFT OUT;E:0:LOCKING-SHIFT ONE;
  F:0:SHIFT IN;F:0:LOCKING-SHIFT ZERO;10:0:DATA LINK ESCAPE;18:0:CANCEL;19:0:END OF MEDIUM;
  1A:0:SUBSTITUTE;1B:0:ESCAPE;7F:0:DELETE;85:0:NEXT LINE;0:0:NUL;1:0:SOH;2:0:STX;3:0:ETX;
  4:0:EOT;5:0:ENQ;6:0:ACK;7:0:BEL;8:0:BS;9:0:HT;9:0:TAB;A:0:LF;A:0:NL;A:0:EOL;B:0:VT;C:0:FF;
  D:0:CR;E:0:SO;F:0:SI;10:0:DLE;11:0:DC1;12:0:DC2;13:0:DC3;14:0:DC4;15:0:NAK;16:0:SYN;17:0:ETB;
  18:0:CAN;19:0:EOM;1A:0:SUB;1B:0:ESC;1C:0:FS;1D:0:GS;1E:0:RS;1F:0:US;20:0:SP;7F:0:DEL;80:0:PAD;
  81:0:HOP;82:0:BPH;83:0:NBH;84:0:IND;85:0:NEL;A0:0:NBSP;AD:0:SHY;200B:0:ZWSP;200C:0:ZWNJ;
  200D:0:ZWJ;200E:0:LRM;200F:0:RLM;34F:0:CGJ;2060:0:WJ;202A:0:LRE;202B:0:RLE;202C:0:PDF;
  202D:0:LRO;202E:0:RLO;202F:0:NNBSP;205F:0:MMSP;FEFF:0:BYTE ORDER MARK;FEFF:0:BOM;
  FEFF:0:ZWNBSP;1A2:0:LATIN CAPITAL LETTER GHA;1A3:1:SMALL LETTER GHA;1C:0:FILE SEPARATOR;
  1D:0:GROUP SEPARATOR;1E:0:RECORD SEPARATOR;1F:0:UNIT SEPARATOR;1F:0:INFORMATION SEPARATOR ONE;
  1E:2:TWO;1D:2:THREE;1C:2:FOUR"

/-- One step of reading the entries; the words of the latest name are kept. -/
def readName (acc : Array (Nat × String) × List (List Char)) (item : List Char) :
    Array (Nat × String) × List (List Char) :=
  match cutAt (· == ':') (item.dropWhile isGap) with
  | [code, shared, words] =>
    let count := shared.foldl (fun n d => 10 * n + (d.toNat - '0'.toNat)) 0
    let name := acc.2.take count ++ cutAt (· == ' ') words
    (acc.1.push (hexValue code, String.ofList (List.intercalate [' '] name)), name)
  | _ => acc

def characterNames : Array (Nat × String) :=
  ((cutAt (· == ';') nameText.toList).foldl readName (#[], [])).1

def hangulInitials : List String :=
  ["G", "GG", "N", "D", "DD", "R", "M", "B", "BB", "S", "SS", "", "J", "JJ", "C", "K", "T", "P", "H"]

def hangulVowels : List String :=
  ["A", "AE", "YA", "YAE", "EO", "E", "YEO", "YE", "O", "WA", "WAE", "OE", "YO", "U", "WEO", "WE",
    "WI", "YU", "EU", "YI", "I"]

def hangulFinals : List String :=
  ["", "G", "GG", "GS", "N", "NJ", "NH", "D", "L", "LG", "LM", "LB", "LS", "LT", "LP", "LH", "M",
    "B", "BS", "S", "SS", "NG", "J", "C", "K", "T", "P", "H"]

def hangulName (index : Nat) : String :=
  "HANGUL SYLLABLE " ++ hangulInitials[index / 588]?.getD ""
    ++ hangulVowels[index % 588 / 28]?.getD "" ++ hangulFinals[index % 28]?.getD ""

/-- Stretches of unified ideographs, whose names end in their code. -/
def ideographs : Ranges :=
  Ranges.ofText "3400-4DBF 4E00-9FFF 20000-2A6DF 2A700-2B738 2B740-2B81D 2B820-2CEA1 2CEB0-2EBE0
  30000-3134A"

/-- The code at the end of an ideograph's name. -/
def ideographCode? (name : List Char) : Option Nat :=
  let opening := "CJK UNIFIED IDEOGRAPH-".toList
  let code := name.drop opening.length
  if opening.isPrefixOf name && (code.length == 4 || code.length == 5)
      && code.all (fun d => d.isDigit || ('A' ≤ d && d ≤ 'F')) && ideographs.has (hexValue code) then
    some (hexValue code)
  else none

/-- The character of a name, whatever the case of its letters. -/
def characterNamed? (name : String) : Option Nat :=
  let capital := name.map fun c => if 'a' ≤ c && c ≤ 'z' then Char.ofNat (c.toNat - 32) else c
  match characterNames.find? fun entry => entry.2 == capital with
  | some entry => some entry.1
  | none =>
    match ideographCode? capital.toList with
    | some code => some code
    | none =>
      if "HANGUL SYLLABLE ".toList.isPrefixOf capital.toList then
        ((List.range 11172).find? fun index => hangulName index == capital).map (0xAC00 + ·)
      else none

end Neogrammar.Text
